import MatrixOdbc.Driver.WideResult

/-!
# Wide-character data in chunks

While the data of a column is retrieved in several calls, the source stands
behind the characters delivered so far, and a second surrogate may wait in
`latest`. The first call counts the whole value; when its buffer ends inside a
surrogate pair, it goes on counting and leaves the source in front of the pair.
-/

namespace MatrixOdbc.Driver

open Util MysqlStrings WhileLoop Utf

theorem myMbWcUtf8mb4_one {x : ℕ} {rest : List UInt8} (hx : x < 0x80) :
    myMbWcUtf8mb4 (UInt8.ofNat x :: rest) = (1, x) := by
  have hlead : UInt8.ofNat x < 0x80 := (ofNat_lt_byte (by omega) (by decide)).mpr hx
  simp only [myMbWcUtf8mb4, myMbWcUtf8Prototype, if_pos hlead, toNat_ofNat_byte (show x < 256 by omega)]

theorem myMbWcUtf8mb4_two {x y : ℕ} {rest : List UInt8} (hx : x < 32) (hx₂ : 2 ≤ x) (hy : y < 64) :
    myMbWcUtf8mb4 (UInt8.ofNat (x + 0xc0) :: UInt8.ofNat (y + 0x80) :: rest) = (2, x * 64 + y) := by
  have hascii : ¬ UInt8.ofNat (x + 0xc0) < 0x80 :=
    (ofNat_lt_byte (m := 0x80) (by omega) (by decide)).not.mpr (by omega)
  have hlead : UInt8.ofNat (x + 0xc0) < 0xe0 :=
    (ofNat_lt_byte (m := 0xe0) (by omega) (by decide)).mpr (by omega)
  have hmin : ¬ UInt8.ofNat (x + 0xc0) < 0xc2 :=
    (ofNat_lt_byte (m := 0xc2) (by omega) (by decide)).not.mpr (by omega)
  obtain ⟨hmark, hbits⟩ := continuation_bits y hy
  rw [myMbWcUtf8mb4, myMbWcUtf8Prototype, if_neg hascii, if_pos hlead, if_neg hmin]
  simp only [toNat_ofNat_byte (show x + 0xc0 < 256 by omega),
    toNat_ofNat_byte (show y + 0x80 < 256 by omega), hmark, hbits, lead_bits.1 x hx, ne_eq,
    not_true_eq_false, if_false, Nat.shiftLeft_eq]

theorem myMbWcUtf8mb4_three {x y z : ℕ} {rest : List UInt8} (hx : x < 16) (hy : y < 64)
    (hz : z < 64) (hmin : 0x800 ≤ x * 4096 + y * 64 + z)
    (hscalar : x * 4096 + y * 64 + z < 0xd800 ∨ 0xdfff < x * 4096 + y * 64 + z) :
    myMbWcUtf8mb4 (UInt8.ofNat (x + 0xe0) :: UInt8.ofNat (y + 0x80) :: UInt8.ofNat (z + 0x80) :: rest) =
      (3, x * 4096 + y * 64 + z) := by
  have hascii : ¬ UInt8.ofNat (x + 0xe0) < 0x80 :=
    (ofNat_lt_byte (m := 0x80) (by omega) (by decide)).not.mpr (by omega)
  have hlead₂ : ¬ UInt8.ofNat (x + 0xe0) < 0xe0 :=
    (ofNat_lt_byte (m := 0xe0) (by omega) (by decide)).not.mpr (by omega)
  have hlead : UInt8.ofNat (x + 0xe0) < 0xf0 :=
    (ofNat_lt_byte (m := 0xf0) (by omega) (by decide)).mpr (by omega)
  obtain ⟨hmark₁, hbits₁⟩ := continuation_bits y hy
  obtain ⟨hmark₂, hbits₂⟩ := continuation_bits z hz
  rw [myMbWcUtf8mb4, myMbWcUtf8Prototype, if_neg hascii, if_neg hlead₂, if_pos hlead]
  simp only [toNat_ofNat_byte (show x + 0xe0 < 256 by omega),
    toNat_ofNat_byte (show y + 0x80 < 256 by omega), toNat_ofNat_byte (show z + 0x80 < 256 by omega),
    hmark₁, hbits₁, hmark₂, hbits₂, lead_bits.2.1 x hx, ne_eq, not_true_eq_false, or_self, if_false,
    Nat.shiftLeft_eq]
  rw [if_neg (by omega)]

theorem myMbWcUtf8mb4_four {w x y z : ℕ} {rest : List UInt8} (hw : w < 8) (hx : x < 64) (hy : y < 64)
    (hz : z < 64) (hmin : 0x10000 ≤ w * 262144 + x * 4096 + y * 64 + z)
    (hmax : w * 262144 + x * 4096 + y * 64 + z ≤ 0x10ffff) :
    myMbWcUtf8mb4 (UInt8.ofNat (w + 0xf0) :: UInt8.ofNat (x + 0x80) :: UInt8.ofNat (y + 0x80) ::
        UInt8.ofNat (z + 0x80) :: rest) = (4, w * 262144 + x * 4096 + y * 64 + z) := by
  have hascii : ¬ UInt8.ofNat (w + 0xf0) < 0x80 :=
    (ofNat_lt_byte (m := 0x80) (by omega) (by decide)).not.mpr (by omega)
  have hlead₂ : ¬ UInt8.ofNat (w + 0xf0) < 0xe0 :=
    (ofNat_lt_byte (m := 0xe0) (by omega) (by decide)).not.mpr (by omega)
  have hlead₃ : ¬ UInt8.ofNat (w + 0xf0) < 0xf0 :=
    (ofNat_lt_byte (m := 0xf0) (by omega) (by decide)).not.mpr (by omega)
  obtain ⟨hmark₁, hbits₁⟩ := continuation_bits x hx
  obtain ⟨hmark₂, hbits₂⟩ := continuation_bits y hy
  obtain ⟨hmark₃, hbits₃⟩ := continuation_bits z hz
  obtain ⟨hbits₀, hmark₀⟩ := lead_bits.2.2 w hw
  rw [myMbWcUtf8mb4, myMbWcUtf8Prototype, if_neg hascii, if_neg hlead₂, if_neg hlead₃,
    if_pos rfl]
  simp only [toNat_ofNat_byte (show w + 0xf0 < 256 by omega),
    toNat_ofNat_byte (show x + 0x80 < 256 by omega), toNat_ofNat_byte (show y + 0x80 < 256 by omega),
    toNat_ofNat_byte (show z + 0x80 < 256 by omega), hmark₀, hbits₀, hmark₁, hbits₁, hmark₂, hbits₂,
    hmark₃, hbits₃, ne_eq, not_true_eq_false, or_self, if_false, Nat.shiftLeft_eq]
  rw [if_neg (by omega)]

/-- The decoder reads an encoded character back. -/
theorem myMbWcUtf8mb4_utf8EncodeChar (c : Char) (rest : List UInt8) :
    myMbWcUtf8mb4 (String.utf8EncodeChar c ++ rest) =
      (((String.utf8EncodeChar c).length : ℤ), c.toNat) := by
  have hscalar := toNat_scalar c
  have hval : c.val.toNat = c.toNat := rfl
  simp only [String.utf8EncodeChar, hval]
  generalize c.toNat = v at *
  split_ifs with h₁ h₂ h₃
  · exact myMbWcUtf8mb4_one (by omega)
  · apply (myMbWcUtf8mb4_two (by omega) (by omega) (by omega)).trans
    refine Prod.ext rfl ?_
    dsimp only
    omega
  · apply (myMbWcUtf8mb4_three (by omega) (by omega) (by omega) (by omega) (by omega)).trans
    refine Prod.ext rfl ?_
    dsimp only
    omega
  · refine (myMbWcUtf8mb4_four (by omega) (by omega) (by omega) (by omega) (by omega)
      (by omega)).trans ?_
    refine Prod.ext rfl ?_
    dsimp only
    omega

/-- The encoder writes the units of a character. -/
theorem myUniUtf16le_toNat (c : Char) : myUniUtf16le c.toNat = utf16Char c := by
  have hscalar := toNat_scalar c
  by_cases hpair : IsPair c
  · rw [utf16Char_of_isPair hpair, highUnit, lowUnit]
    have hlarge : 0xFFFF < c.toNat := hpair
    generalize c.toNat = v at *
    rw [myUniUtf16le, if_neg (by omega), if_neg (by omega)]
    have hhigh : ((v - 0x10000) >>> 10) &&& 0x3FF = (v - 0x10000) / 0x400 := by
      rw [and_low_bits, Nat.shiftRight_eq_div_pow]
      omega
    rw [hhigh, and_low_bits, or_low_bits 54 (by omega), or_low_bits 55 (by omega)]
  · have hsmall : ¬ 0xFFFF < c.toNat := hpair
    rw [utf16Char_of_not_isPair hpair, myUniUtf16le, if_pos (by omega)]

/-- One round of the loop converts one character. -/
theorem convertBody_char {retrieve : Bool} {value : List UInt8} {resultEnd : ℕ} {s : CopyState}
    {c : Char} {rest : List UInt8} (h : value.drop s.src = String.utf8EncodeChar c ++ rest) :
    convertBody retrieve value resultEnd s =
      if IsPair c then
        storeUnits retrieve resultEnd (String.utf8EncodeChar c).length (highUnit c)
          (some (lowUnit c)) s
      else
        storeUnits retrieve resultEnd (String.utf8EncodeChar c).length (UInt16.ofNat c.toNat) none s := by
  have hlen := utf8EncodeChar_length_pos c
  have hmore : ¬ value.length ≤ s.src := by
    intro hle
    rw [List.drop_eq_nil_of_le hle] at h
    have hnil := congrArg List.length h
    rw [List.length_append, List.length_nil] at hnil
    omega
  rw [convertBody, if_neg hmore, h, myMbWcUtf8mb4_utf8EncodeChar]
  have hnonneg : ¬ ((String.utf8EncodeChar c).length : ℤ) < 0 := by omega
  have hne : ((String.utf8EncodeChar c).length : ℤ) ≠ MY_CS_ILSEQ := by
    unfold MY_CS_ILSEQ
    omega
  simp only [hnonneg, hne, false_and, if_false, Int.natAbs_natCast, myUniUtf16le_toNat]
  by_cases hc : IsPair c
  · simp [utf16Char_of_isPair hc, hc]
  · simp [utf16Char_of_not_isPair hc, hc]

/-- Without a buffer the rest of the value is only counted. -/
theorem returns_count {value : List UInt8} (resultEnd : ℕ) {cs : List Char} {s : CopyState}
    (hresult : s.result = none) (h : value.drop s.src = utf8 cs) :
    Returns (convertBody true value resultEnd) s
      ({ s with src := s.src + (utf8 cs).length, usedChars := s.usedChars + (utf16 cs).length },
        true) := by
  induction cs generalizing s with
  | nil =>
    apply returns_of_done
    have hle : value.length ≤ s.src := by simpa using h
    simp [convertBody, hle]
  | cons c cs ih =>
    have hnext : convertBody true value resultEnd s =
        .next { s with src := s.src + (String.utf8EncodeChar c).length
                       usedChars := s.usedChars + (utf16Char c).length } := by
      rw [convertBody_char (by simpa using h)]
      by_cases hc : IsPair c
      · simp [hc, utf16Char_of_isPair hc, storeUnits, CopyState.append, hresult]
      · simp [hc, utf16Char_of_not_isPair hc, storeUnits, CopyState.append, hresult,
          CopyState.finishChar, CopyState.closeAtEnd]
    rw [returns_next_iff hnext]
    have hdrop : value.drop (s.src + (String.utf8EncodeChar c).length) = utf8 cs := by
      rw [← List.drop_drop, h, utf8_cons, List.drop_left]
    have := ih (s := { s with src := s.src + (String.utf8EncodeChar c).length
                              usedChars := s.usedChars + (utf16Char c).length }) hresult hdrop
    simpa [Nat.add_assoc] using this

/-- The state in which `written` has been copied and `free` is left of the buffer. -/
def filling (src source : ℕ) (written free : List SQLWCHAR) (used : ℕ) (getdata : GetData) :
    CopyState :=
  ⟨src, some written.length, written ++ free, used, 0, { getdata with source := some source }, true⟩

variable {src source used resultEnd : ℕ} {written free : List SQLWCHAR} {getdata : GetData}
  {value : List UInt8}

variable (src source used written free getdata) in
theorem closeAtEnd_filling_of_lt (h : written.length < resultEnd) :
    (filling src source written free used getdata).closeAtEnd true resultEnd =
      filling src source written free used getdata := by
  rw [CopyState.closeAtEnd, if_neg]
  simp only [filling, Option.some.injEq]
  omega

variable (source used getdata) in
/-- A character whose units fit is copied. -/
theorem convertBody_fits {c : Char} {rest : List UInt8}
    (hend : written.length + free.length = resultEnd + 1)
    (hfit : written.length + (utf16Char c).length ≤ resultEnd)
    (h : value.drop src = String.utf8EncodeChar c ++ rest) :
    convertBody true value resultEnd (filling src source written free used getdata) =
      .next ((filling (src + (String.utf8EncodeChar c).length)
        (source + (String.utf8EncodeChar c).length) (written ++ utf16Char c)
        (free.drop (utf16Char c).length) (used + (utf16Char c).length)
        getdata).closeAtEnd true resultEnd) := by
  rw [convertBody_char h]
  generalize (String.utf8EncodeChar c).length = cnvres
  by_cases hc : IsPair c
  · rw [utf16Char_of_isPair hc] at hfit ⊢
    simp only [List.length_cons, List.length_nil] at hfit
    obtain ⟨x, x', free, rfl⟩ : ∃ x x' free', free = x :: x' :: free' := by
      rcases free with - | ⟨x, - | ⟨x', free⟩⟩
      · simp at hend; omega
      · simp at hend; omega
      · exact ⟨x, x', free, rfl⟩
    have hroom : written.length + 1 ≠ resultEnd := by omega
    rw [if_pos hc]
    simp [storeUnits, CopyState.append, CopyState.put, CopyState.finishChar,
      CopyState.advanceSource, filling, List.set_append_right, hroom]
  · rw [utf16Char_of_not_isPair hc] at hfit ⊢
    simp only [List.length_cons, List.length_nil] at hfit
    obtain ⟨x, free, rfl⟩ : ∃ x free', free = x :: free' := by
      rcases free with - | ⟨x, free⟩
      · simp at hend; omega
      · exact ⟨x, free, rfl⟩
    rw [if_neg hc]
    simp [storeUnits, CopyState.append, CopyState.put, CopyState.finishChar,
      CopyState.advanceSource, filling, List.set_append_right]

variable (src source used resultEnd written free getdata value) in
/-- A text whose units fit is copied, one character in a round. -/
theorem reaches_fits (pre : List Char) (rest : List UInt8)
    (hend : written.length + free.length = resultEnd + 1) (hroom : written.length < resultEnd)
    (hfit : written.length + (utf16 pre).length ≤ resultEnd)
    (h : value.drop src = utf8 pre ++ rest) :
    Reaches (convertBody true value resultEnd) (filling src source written free used getdata)
      ((filling (src + (utf8 pre).length) (source + (utf8 pre).length) (written ++ utf16 pre)
        (free.drop (utf16 pre).length) (used + (utf16 pre).length)
        getdata).closeAtEnd true resultEnd) := by
  induction pre generalizing src source written free used with
  | nil =>
    have hsame := closeAtEnd_filling_of_lt src source used _ free getdata hroom
    simpa [hsame] using Reaches.refl
  | cons c pre ih =>
    simp only [utf16_cons, utf8_cons, List.length_append, List.append_assoc] at hfit h ⊢
    have hstep := convertBody_fits source used getdata hend
      (by omega) h
    have hdrop : value.drop (src + (String.utf8EncodeChar c).length) = utf8 pre ++ rest := by
      rw [← List.drop_drop, h, List.drop_left]
    rcases Nat.lt_or_ge (written.length + (utf16Char c).length) resultEnd with hlt | hge
    · rw [closeAtEnd_filling_of_lt _ _ _ _ _ _ (by simpa using hlt)] at hstep
      have hrec := ih _ (source + (String.utf8EncodeChar c).length)
        (used + (utf16Char c).length) (written ++ utf16Char c) (free.drop (utf16Char c).length)
        (by simp; omega) (by simpa using hlt) (by simp only [List.length_append]; omega) hdrop
      refine .head hstep ?_
      simpa [Nat.add_assoc, List.drop_drop] using hrec
    · -- the buffer is full, so nothing is left to copy
      have hnil : pre = [] := by
        rcases pre with - | ⟨c', pre⟩
        · rfl
        · have := utf16Char_length_pos c'
          simp only [utf16_cons, List.length_append] at hfit
          omega
      subst hnil
      refine .head hstep ?_
      simpa using Reaches.refl

/-- The state in which a second surrogate has been latched. -/
def latched (src source : ℕ) (buffer : List SQLWCHAR) (used : ℕ) (u : SQLWCHAR) (getdata : GetData) :
    CopyState :=
  ⟨src, none, buffer, used, 0,
    { getdata with source := some source, latest := u, latestBytes := 2 }, true⟩

variable (source used resultEnd written free getdata) in
/-- When a pair does not fit, its second unit is latched. The source is moved
behind the pair only if the length of the data is known. -/
theorem convertBody_splits {c : Char} {rest : List UInt8} (hc : IsPair c)
    (hend : written.length + free.length = resultEnd + 1) (hsplit : written.length + 1 = resultEnd)
    (h : value.drop src = String.utf8EncodeChar c ++ rest) :
    convertBody true value resultEnd (filling src source written free used getdata) =
      if getdata.dstBytes.isSome then
        .done (latched (src + (String.utf8EncodeChar c).length)
          (source + (String.utf8EncodeChar c).length) (written ++ [highUnit c, 0]) (used + 2)
          (lowUnit c) getdata, true)
      else
        .next (latched (src + (String.utf8EncodeChar c).length) source
          (written ++ [highUnit c, 0]) (used + 2) (lowUnit c) getdata) := by
  rw [convertBody_char h, if_pos hc]
  obtain ⟨x, x', rfl⟩ : ∃ x x', free = [x, x'] := by
    rcases free with - | ⟨x, - | ⟨x', - | ⟨x'', free⟩⟩⟩
    · simp at hend; omega
    · simp at hend; omega
    · exact ⟨x, x', rfl⟩
    · simp at hend; omega
  cases hbytes : getdata.dstBytes with
  | none =>
    simp [storeUnits, CopyState.append, CopyState.put, CopyState.finishChar, CopyState.closeAtEnd,
      filling, latched, List.set_append_right, ← hsplit, hbytes]
  | some n =>
    simp [storeUnits, CopyState.append, CopyState.put, CopyState.advanceSource, filling, latched,
      List.set_append_right, ← hsplit, hbytes]

@[simp] theorem terminate_getdata (retrieve : Bool) (s : CopyState) :
    (s.terminate retrieve).getdata = s.getdata := by
  unfold CopyState.terminate CopyState.put
  split
  · split <;> rfl
  · rfl

@[simp] theorem terminate_usedChars (retrieve : Bool) (s : CopyState) :
    (s.terminate retrieve).usedChars = s.usedChars := by
  unfold CopyState.terminate CopyState.put
  split
  · split <;> rfl
  · rfl

@[simp] theorem terminate_errorCount (retrieve : Bool) (s : CopyState) :
    (s.terminate retrieve).errorCount = s.errorCount := by
  unfold CopyState.terminate CopyState.put
  split
  · split <;> rfl
  · rfl

variable (src source used resultEnd written free getdata) in
/-- Whatever was copied is terminated behind its last unit. -/
theorem terminate_closeAtEnd_filling (x : SQLWCHAR) :
    (((filling src source written (x :: free) used getdata).closeAtEnd true
        resultEnd).terminate true).buffer = written ++ 0 :: free ∧
      (((filling src source written (x :: free) used getdata).closeAtEnd true
        resultEnd).terminate true).inBounds = true := by
  by_cases h : written.length = resultEnd
  · subst h
    simp [filling, CopyState.closeAtEnd, CopyState.terminate, CopyState.put,
      List.set_append_right]
  · simp [filling, CopyState.closeAtEnd, CopyState.terminate, CopyState.put, h,
      List.set_append_right]

variable (src source used resultEnd written free getdata) in
theorem closeAtEnd_fields :
    let s := (filling src source written free used getdata).closeAtEnd true resultEnd
    s.src = src ∧ s.usedChars = used ∧ s.errorCount = 0 ∧
      s.getdata = { getdata with source := some source } := by
  unfold CopyState.closeAtEnd
  split <;> simp [filling, CopyState.put]

/-- The unit that waits for the next call. -/
def pending (getdata : GetData) : List SQLWCHAR :=
  if getdata.latestBytes = 0 then [] else [getdata.latest]

/-- The loop has delivered a chunk of `units` into `buffer`. What is left are
the pending unit and the characters from the source on. -/
structure ChunkDone (units buffer : List SQLWCHAR) (resultEnd source : ℕ) (post : List Char)
    (getdata : GetData) (s : CopyState) : Prop where
  buffer_eq : (s.terminate true).buffer =
    units.take resultEnd ++ 0 :: buffer.drop (min resultEnd units.length + 1)
  inBounds : (s.terminate true).inBounds = true
  errorCount : s.errorCount = 0
  used : min resultEnd s.usedChars = min resultEnd units.length
  counted : getdata.dstBytes = none → s.usedChars = units.length
  dstBytes : s.getdata.dstBytes = getdata.dstBytes
  dstOffset : s.getdata.dstOffset = getdata.dstOffset
  rest : ∃ pre post', post = pre ++ post' ∧ s.getdata.source = some (source + (utf8 pre).length) ∧
    units.drop resultEnd = pending s.getdata ++ utf16 post'

theorem with_src_eq {s : CopyState} {src : ℕ} (h : s.src = src) : { s with src := src } = s := by
  subst h
  rfl

theorem terminate_counted (s : CopyState) (src used : ℕ) :
    let s' : CopyState := { s with src := src, usedChars := used }
    (s'.terminate true).buffer = (s.terminate true).buffer ∧
      (s'.terminate true).inBounds = (s.terminate true).inBounds := by
  obtain ⟨_, result, _, _, _, _, _⟩ := s
  cases result <;> simp [CopyState.terminate, CopyState.put]

variable (src source getdata) in
/-- When copying stops behind complete characters, the chunk is delivered. -/
theorem chunkDone_of_fits {pre post : List Char} (total : ℕ)
    (hend : written.length + free.length = resultEnd + 1)
    (hfit : written.length + (utf16 pre).length ≤ resultEnd)
    (hstop : post = [] ∨ written.length + (utf16 pre).length = resultEnd)
    (hlatest : getdata.latestBytes = 0) :
    let s := (filling (src + (utf8 pre).length) (source + (utf8 pre).length) (written ++ utf16 pre)
      (free.drop (utf16 pre).length) (written.length + (utf16 pre).length)
      getdata).closeAtEnd true resultEnd
    ChunkDone (written ++ utf16 (pre ++ post)) (written ++ free) resultEnd source (pre ++ post)
      getdata { s with src := total, usedChars := s.usedChars + (utf16 post).length } := by
  intro s
  obtain ⟨x, free', hfree⟩ : ∃ x free', free.drop (utf16 pre).length = x :: free' := by
    cases hdrop : free.drop (utf16 pre).length with
    | nil =>
      have := congrArg List.length hdrop
      simp at this
      omega
    | cons x free' => exact ⟨x, free', rfl⟩
  obtain ⟨-, hused, herror, hgetdata⟩ := closeAtEnd_fields (src + (utf8 pre).length)
    (source + (utf8 pre).length) (written.length + (utf16 pre).length) resultEnd
    (written ++ utf16 pre) (free.drop (utf16 pre).length) getdata
  have hterm := terminate_closeAtEnd_filling (src + (utf8 pre).length)
    (source + (utf8 pre).length) (written.length + (utf16 pre).length) resultEnd
    (written ++ utf16 pre) free' getdata x
  rw [← hfree] at hterm
  obtain ⟨hbuffer, hbounds⟩ := terminate_counted s total (s.usedChars + (utf16 post).length)
  have htake : (written ++ utf16 (pre ++ post)).take resultEnd = written ++ utf16 pre ∧
      min resultEnd (written ++ utf16 (pre ++ post)).length = written.length + (utf16 pre).length ∧
      (written ++ utf16 (pre ++ post)).drop resultEnd = utf16 post := by
    rw [utf16_append, ← List.append_assoc]
    have hlen : (written ++ utf16 pre).length = written.length + (utf16 pre).length :=
      List.length_append
    rcases hstop with rfl | hfull
    · simp only [utf16_nil, List.append_nil, hlen]
      exact ⟨List.take_of_length_le (by omega), by omega, List.drop_eq_nil_of_le (by omega)⟩
    · have hlen' : (written ++ utf16 pre).length = resultEnd := by omega
      refine ⟨?_, ?_, ?_⟩
      · rw [← hlen', List.take_left]
      · rw [List.length_append, hlen]
        omega
      · rw [← hlen', List.drop_left]
  obtain ⟨htake, hmin, hdrop⟩ := htake
  refine ⟨?_, ?_, herror, ?_, ?_, ?_, ?_, pre, post, rfl, ?_, ?_⟩
  · rw [hbuffer, hterm.1, htake, hmin]
    have htail : free' = free.drop ((utf16 pre).length + 1) := by
      rw [← List.drop_drop, hfree]
      rfl
    have hskip (k : ℕ) : (written ++ free).drop (written.length + k) = free.drop k := by
      rw [← List.drop_drop, List.drop_left]
    rw [htail, Nat.add_assoc, hskip]
  · rw [hbounds]
    exact hterm.2
  · dsimp only [s]
    rw [hused]
    simp only [utf16_append, List.length_append, Nat.add_assoc]
  · intro _
    dsimp only [s]
    rw [hused]
    simp only [utf16_append, List.length_append, Nat.add_assoc]
  · dsimp only [s]
    rw [hgetdata]
  · dsimp only [s]
    rw [hgetdata]
  · dsimp only [s]
    rw [hgetdata]
  · dsimp only [s]
    rw [hgetdata, hdrop]
    simp [pending, hlatest]

/-- When a pair is split after the length is known, the chunk is delivered. -/
theorem chunkDone_of_splits {pre post : List Char} {c : Char} (hc : IsPair c) (total used : ℕ)
    (hend : written.length + free.length = resultEnd + 1)
    (hsplit : written.length + (utf16 pre).length + 1 = resultEnd)
    (hbytes : getdata.dstBytes ≠ none) (hused : resultEnd ≤ used) :
    ChunkDone (written ++ utf16 (pre ++ c :: post)) (written ++ free) resultEnd source
      (pre ++ c :: post) getdata
      (latched total (source + (utf8 pre).length + (String.utf8EncodeChar c).length)
        (written ++ utf16 pre ++ [highUnit c, 0]) used (lowUnit c) getdata) := by
  have hunits : written ++ utf16 (pre ++ c :: post) =
      (written ++ utf16 pre ++ [highUnit c]) ++ lowUnit c :: utf16 post := by
    simp [utf16Char_of_isPair hc]
  have hlen : (written ++ utf16 pre ++ [highUnit c]).length = resultEnd := by
    simp only [List.length_append, List.length_singleton]
    omega
  refine ⟨?_, rfl, rfl, ?_, fun h => absurd h hbytes, rfl, rfl, pre ++ [c], post, by simp, ?_, ?_⟩
  · rw [hunits]
    have hdrop : (written ++ free).drop (resultEnd + 1) = [] :=
      List.drop_eq_nil_of_le (by simp; omega)
    have hmin : min resultEnd ((written ++ utf16 pre ++ [highUnit c]) ++
        lowUnit c :: utf16 post).length = resultEnd := by
      rw [List.length_append, hlen]
      omega
    rw [hmin, hdrop, ← hlen, List.take_left]
    simp [latched, CopyState.terminate]
  · rw [hunits, List.length_append, hlen]
    simp only [latched]
    omega
  · simp [latched, Nat.add_assoc]
  · rw [hunits, ← hlen, List.drop_left]
    simp [latched, pending]

variable (src source resultEnd written free getdata value) in
/-- The loop delivers a chunk, unless it splits a pair while it counts. -/
theorem returns_chunk (post : List Char) (hend : written.length + free.length = resultEnd + 1)
    (hroom : written.length ≤ resultEnd) (hlatest : getdata.latestBytes = 0)
    (h : value.drop src = utf8 post)
    (hsplit : getdata.dstBytes = none → ¬ SplitsPair post (resultEnd - written.length)) :
    ∃ s, Returns (convertBody true value resultEnd)
        ((filling src source written free written.length getdata).closeAtEnd true resultEnd)
        (s, true) ∧
      ChunkDone (written ++ utf16 post) (written ++ free) resultEnd source post getdata s := by
  -- the state reached behind the complete characters `pre`
  have hreach : ∀ pre post', post = pre ++ post' →
      written.length + (utf16 pre).length ≤ resultEnd →
      (written.length < resultEnd ∨ pre = []) →
      Reaches (convertBody true value resultEnd)
        ((filling src source written free written.length getdata).closeAtEnd true resultEnd)
        ((filling (src + (utf8 pre).length) (source + (utf8 pre).length) (written ++ utf16 pre)
          (free.drop (utf16 pre).length) (written.length + (utf16 pre).length)
          getdata).closeAtEnd true resultEnd) := by
    intro pre post' hpost hfit hpre
    rcases hpre with hlt | rfl
    · rw [closeAtEnd_filling_of_lt _ _ _ _ _ _ hlt]
      exact reaches_fits _ _ _ _ _ _ _ _ _ _ hend hlt hfit (by rw [h, hpost, utf8_append])
    · simpa using Reaches.refl
  have hdone : ∀ pre post', post = pre ++ post' →
      written.length + (utf16 pre).length ≤ resultEnd →
      (written.length < resultEnd ∨ pre = []) →
      (post' = [] ∨ written.length + (utf16 pre).length = resultEnd) →
      ∃ s, Returns (convertBody true value resultEnd)
          ((filling src source written free written.length getdata).closeAtEnd true resultEnd)
          (s, true) ∧
        ChunkDone (written ++ utf16 post) (written ++ free) resultEnd source post getdata s := by
    intro pre post' hpost hfit hpre hstop
    have hdrop : value.drop (src + (utf8 pre).length) = utf8 post' := by
      rw [← List.drop_drop, h, hpost, utf8_append, List.drop_left]
    have hchunk := chunkDone_of_fits src source getdata
      (src + (utf8 pre).length + (utf8 post').length) hend hfit hstop hlatest
    refine ⟨_, (hreach pre post' hpost hfit hpre).returns_iff.mpr ?_, hpost ▸ hchunk⟩
    have hsrc := (closeAtEnd_fields (src + (utf8 pre).length) (source + (utf8 pre).length)
      (written.length + (utf16 pre).length) resultEnd (written ++ utf16 pre)
      (free.drop (utf16 pre).length) getdata).1
    rcases hstop with rfl | hfull
    · apply returns_of_done
      have hle : value.length ≤ src + (utf8 pre).length := by simpa using hdrop
      rw [convertBody, hsrc, if_pos hle]
      simp only [utf8_nil, utf16_nil, List.length_nil, Nat.add_zero]
      exact congrArg (fun s => Step.done (s, true)) (with_src_eq hsrc).symm
    · have hresult : ((filling (src + (utf8 pre).length) (source + (utf8 pre).length)
          (written ++ utf16 pre) (free.drop (utf16 pre).length)
          (written.length + (utf16 pre).length) getdata).closeAtEnd true resultEnd).result =
          none := by
        simp [CopyState.closeAtEnd, filling, hfull]
      have := returns_count resultEnd hresult (by rw [hsrc]; exact hdrop)
      rwa [hsrc] at this
  rcases Nat.eq_or_lt_of_le hroom with hfull | hlt
  · exact hdone [] post rfl (by simpa using hroom) (Or.inr rfl) (Or.inr (by simpa using hfull))
  rcases Nat.lt_or_ge resultEnd (written.length + (utf16 post).length) with hlong | hshort
  · rcases cut_cases post (resultEnd - written.length) (by omega) with
      ⟨pre, post', hpost, hlen⟩ | hpair
    · exact hdone pre post' hpost (by omega) (Or.inl hlt) (Or.inr (by omega))
    · have hbytes : getdata.dstBytes ≠ none := fun hnone => hsplit hnone hpair
      obtain ⟨pre, c, post', rfl, hc, hlen⟩ := hpair
      have hdrop : value.drop (src + (utf8 pre).length) =
          String.utf8EncodeChar c ++ utf8 post' := by
        rw [← List.drop_drop, h, utf8_append, List.drop_left, utf8_cons]
      have hstep := convertBody_splits (source + (utf8 pre).length)
        (written.length + (utf16 pre).length) resultEnd (written ++ utf16 pre)
        (free.drop (utf16 pre).length) getdata hc (by simp; omega) (by simp; omega) hdrop
      rw [if_pos (Option.isSome_iff_ne_none.mpr hbytes)] at hstep
      have hbefore := hreach pre (c :: post') rfl (by omega) (Or.inl hlt)
      rw [closeAtEnd_filling_of_lt _ _ _ (written ++ utf16 pre) _ _ (by simp; omega)] at hbefore
      exact ⟨_, hbefore.returns_iff.mpr (returns_of_done hstep),
        chunkDone_of_splits hc _ _ hend (by omega) hbytes (by omega)⟩
  · exact hdone post [] (by simp) hshort (Or.inl hlt) (Or.inl rfl)

@[simp] theorem put_src (retrieve : Bool) (i : ℕ) (c : SQLWCHAR) (s : CopyState) :
    (s.put retrieve i c).src = s.src := by
  unfold CopyState.put
  split <;> rfl

@[simp] theorem append_src (retrieve : Bool) (c : SQLWCHAR) (s : CopyState) :
    (s.append retrieve c).src = s.src := by
  unfold CopyState.append
  split <;> simp

@[simp] theorem finishChar_src (retrieve : Bool) (resultEnd cnvres : ℕ) (s : CopyState) :
    (s.finishChar retrieve resultEnd cnvres).src = s.src := by
  unfold CopyState.finishChar CopyState.closeAtEnd CopyState.advanceSource
  split <;> split <;> simp

theorem storeUnits_next {retrieve : Bool} {resultEnd cnvres : ℕ} {u₀ : SQLWCHAR}
    {u₁ : Option SQLWCHAR} {s s' : CopyState}
    (h : storeUnits retrieve resultEnd cnvres u₀ u₁ s = .next s') : s'.src = s.src + cnvres := by
  unfold storeUnits at h
  split at h
  · cases h
    simp
  · dsimp only at h
    split at h
    · cases h
      simp
    · split_ifs at h
      · cases h
        simp
      · cases h
        simp

/-- Every round of the loop consumes a part of the value. -/
theorem convertBody_next {retrieve : Bool} {value : List UInt8} {resultEnd : ℕ} {s s' : CopyState}
    (h : convertBody retrieve value resultEnd s = .next s') :
    s.src < value.length ∧ s.src < s'.src := by
  unfold convertBody at h
  split_ifs at h with hend
  refine ⟨by omega, ?_⟩
  simp only at h
  split_ifs at h with hfail hilseq hneg hneg
  all_goals
    split at h
    · cases h
    · have := storeUnits_next h
      have hpos : 0 < (myMbWcUtf8mb4 (value.drop s.src)).1.natAbs ∨
          (myMbWcUtf8mb4 (value.drop s.src)).1 = MY_CS_ILSEQ := by
        unfold MY_CS_ILSEQ
        omega
      simp_all
      try omega

theorem run_eq_of_returns {retrieve : Bool} {value : List UInt8} {resultEnd : ℕ} {s : CopyState}
    {r : CopyState × Bool} (h : Returns (convertBody retrieve value resultEnd) s r) :
    run (convertBody retrieve value resultEnd) (value.length + 1) s = some r := by
  obtain ⟨r', hr'⟩ :
      ∃ r, run (convertBody retrieve value resultEnd) (value.length + 1) s = some r :=
    run_eq_some_of_measure (fun t => value.length - t.src)
      (fun t t' _ hnext => by
        have := convertBody_next hnext
        omega) (by omega)
  rw [hr', Returns.unique ⟨_, hr'⟩ h]

/-- The loop starts behind a unit left over by the last call. -/
theorem copyLatest_copyEnter {opts : StmtOptions} {buffer : List SQLWCHAR} {getdata : GetData}
    (hretrieve : opts.retrieveData = true) (hbuffer : 2 ≤ buffer.length)
    (hsource : getdata.source.getD 0 = src) :
    copyLatest opts (copyEnter buffer getdata) =
      (filling src src (pending getdata) (buffer.drop (pending getdata).length)
        (pending getdata).length { getdata with latestBytes := 0 }).closeAtEnd true
          (buffer.length - 1) := by
  subst hsource
  obtain ⟨x, x', buffer, rfl⟩ : ∃ x x' tail, buffer = x :: x' :: tail := by
    rcases buffer with - | ⟨x, - | ⟨x', tail⟩⟩
    · simp at hbuffer
    · simp at hbuffer
    · exact ⟨x, x', tail, rfl⟩
  obtain ⟨source, latest, latestBytes, dstBytes, dstOffset⟩ := getdata
  by_cases hlatest : latestBytes = 0
  · subst hlatest
    simp [copyLatest, copyEnter, pending, filling, CopyState.closeAtEnd]
  · cases buffer with
    | nil =>
      simp [copyLatest, copyEnter, pending, filling, hlatest, hretrieve, CopyState.put,
        CopyState.closeAtEnd]
    | cons x'' buffer =>
      simp [copyLatest, copyEnter, pending, filling, hlatest, hretrieve, CopyState.put,
        CopyState.closeAtEnd]

/-- What a call delivers from the offset `k` of the units of a value. -/
structure DeliversChunk (units : List SQLWCHAR) (k : ℕ) (buffer : List SQLWCHAR)
    (out : CopyOutcome) : Prop where
  buffer_eq : out.buffer = (units.drop k).take (buffer.length - 1) ++
    0 :: buffer.drop (min (buffer.length - 1) (units.length - k) + 1)
  availBytes : out.availBytes = some ((units.length - k) * 2)
  rc : out.rc = if units.length - k ≤ buffer.length - 1 then .SQL_SUCCESS
    else .SQL_SUCCESS_WITH_INFO
  inBounds : out.inBounds = true

/-- The data kept between two calls when `k` units have been delivered. -/
structure Delivered (cs : List Char) (k : ℕ) (getdata : GetData) : Prop where
  dstBytes : getdata.dstBytes = some ((utf16 cs).length * 2)
  dstOffset : getdata.dstOffset = k * 2
  source : ∃ pre post, cs = pre ++ post ∧ getdata.source = some (utf8 pre).length ∧
    (utf16 cs).drop k = pending getdata ++ utf16 post

/-- The data of a column before the first call. -/
structure Fresh (getdata : GetData) : Prop where
  source : getdata.source = none
  latestBytes : getdata.latestBytes = 0
  dstBytes : getdata.dstBytes = none

theorem pending_length_le (getdata : GetData) : (pending getdata).length ≤ 1 := by
  unfold pending
  split <;> simp

variable (src) in
/-- A call runs the loop from the source on and finishes. -/
theorem copyWcharResult_of_returns {opts : StmtOptions} {cs : List Char}
    {buffer : List SQLWCHAR} {s : CopyState} (hretrieve : opts.retrieveData = true)
    (hvalue : limitLength opts value = utf8 cs) (hbuffer : 2 ≤ buffer.length)
    (hmore : getdata.dstBytes.any (· ≤ getdata.dstOffset) = false)
    (hsource : getdata.source.getD 0 = src)
    (hreturns : Returns (convertBody true (utf8 cs) (buffer.length - 1))
      ((filling src src (pending getdata) (buffer.drop (pending getdata).length)
        (pending getdata).length { getdata with latestBytes := 0 }).closeAtEnd true
          (buffer.length - 1)) (s, true)) :
    copyWcharResult opts value getdata buffer = some (copyFinish opts buffer.length s) := by
  rw [copyWcharResult, hmore, hvalue, copyLatest_copyEnter hretrieve hbuffer hsource,
    hretrieve, run_eq_of_returns hreturns]
  rfl

/-- The bookkeeping behind the loop, once the length of the data is known. -/
theorem copyFinish_eq {opts : StmtOptions} {resultLen : ℕ} (total : ℕ) {s : CopyState} {g : GetData}
    (hretrieve : opts.retrieveData = true) (hlen : resultLen ≠ 0)
    (hg : g = if s.getdata.dstBytes = none then
      { s.getdata with dstBytes := some (s.usedChars * 2), dstOffset := 0 } else s.getdata)
    (htotal : g.dstBytes = some total) :
    copyFinish opts resultLen s =
      ⟨if g.dstOffset + min (resultLen - 1) s.usedChars * 2 < total ∨ s.errorCount ≠ 0 then
          .SQL_SUCCESS_WITH_INFO else .SQL_SUCCESS,
        (s.terminate true).buffer, some (total - g.dstOffset),
        { g with dstOffset := g.dstOffset + min (resultLen - 1) s.usedChars * 2 },
        (s.terminate true).inBounds⟩ := by
  have hget : g.dstBytes.getD (ulongSize - 1) = total := by simp [htotal]
  simp only [copyFinish, hretrieve, terminate_getdata, terminate_usedChars, terminate_errorCount,
    hlen, ne_eq, not_false_eq_true, true_and, false_or, if_true]
  rw [← hg, hget]

variable (getdata) in
/-- Finishing the call after the loop has delivered its chunk. -/
theorem delivers_of_chunkDone {opts : StmtOptions} (pre : List Char) (post : List Char) (k : ℕ)
    (buffer : List SQLWCHAR) {buffer' : List SQLWCHAR} {s : CopyState}
    (hretrieve : opts.retrieveData = true)
    (hbuffer : 2 ≤ buffer.length) (htail : buffer'.drop 1 = buffer.drop 1)
    (hbytes : getdata.dstBytes = none ∧ k = 0 ∨
      getdata.dstBytes = some ((utf16 (pre ++ post)).length * 2) ∧ getdata.dstOffset = k * 2)
    (hk : k ≤ (utf16 (pre ++ post)).length)
    (hdone : ChunkDone ((utf16 (pre ++ post)).drop k) buffer' (buffer.length - 1)
      (utf8 pre).length post getdata s) :
    DeliversChunk (utf16 (pre ++ post)) k buffer (copyFinish opts buffer.length s) ∧
      Delivered (pre ++ post) (min (utf16 (pre ++ post)).length (k + (buffer.length - 1)))
        (copyFinish opts buffer.length s).getdata := by
  obtain ⟨hbuf, hbounds, herror, hused, hcounted, hdstBytes, hdstOffset, pre', post', hpost,
    hsource, hrest⟩ := hdone
  have htotal : ∀ g, g = (if s.getdata.dstBytes = none then
      { s.getdata with dstBytes := some (s.usedChars * 2), dstOffset := 0 } else s.getdata) →
      g.dstBytes = some ((utf16 (pre ++ post)).length * 2) ∧ g.dstOffset = k * 2 ∧
        g.source = s.getdata.source ∧ pending g = pending s.getdata := by
    rintro g rfl
    rcases hbytes with ⟨hnone, rfl⟩ | ⟨hsome, hoffset⟩
    · rw [if_pos (hdstBytes.trans hnone), hcounted hnone]
      exact ⟨by simp, rfl, rfl, rfl⟩
    · rw [if_neg (by simp [hdstBytes, hsome])]
      exact ⟨hdstBytes.trans hsome, hdstOffset.trans hoffset, rfl, rfl⟩
  obtain ⟨htotal, hoffset, hsame, hpend⟩ := htotal _ rfl
  rw [copyFinish_eq _ hretrieve (by omega) rfl htotal]
  rw [List.length_drop] at hused hbuf
  simp only [hoffset, herror, hused]
  refine ⟨⟨?_, ?_, ?_, hbounds⟩, ?_, ?_, ?_⟩
  · have hdrop (n : ℕ) : buffer'.drop (n + 1) = buffer.drop (n + 1) := by
      rw [Nat.add_comm, ← List.drop_drop, htail, List.drop_drop]
    rw [hbuf, hdrop]
  · simp only [Nat.sub_mul]
  · simp only [ne_eq, not_true_eq_false, or_false]
    split_ifs with h₁ h₂ h₂ <;> first | rfl | omega
  · exact htotal
  · dsimp only
    omega
  · refine ⟨pre ++ pre', post', ?_, ?_, ?_⟩
    · rw [hpost, List.append_assoc]
    · apply (hsame.trans hsource).trans
      simp
    · rw [← hpend] at hrest
      simp only [pending] at hrest ⊢
      rw [← hrest, List.drop_drop]
      rcases Nat.le_total (utf16 (pre ++ post)).length (k + (buffer.length - 1)) with hle | hle
      · rw [Nat.min_eq_left hle, List.drop_eq_nil_of_le le_rfl, List.drop_eq_nil_of_le hle]
      · rw [Nat.min_eq_right hle]

/-- A call that is not the first one delivers the next chunk. -/
theorem copyWcharResult_later {opts : StmtOptions} {cs : List Char} {k : ℕ}
    {buffer : List SQLWCHAR} (hretrieve : opts.retrieveData = true)
    (hvalue : limitLength opts value = utf8 cs) (hbuffer : 2 ≤ buffer.length)
    (hdelivered : Delivered cs k getdata) (hk : k < (utf16 cs).length) :
    ∃ out, copyWcharResult opts value getdata buffer = some out ∧
      DeliversChunk (utf16 cs) k buffer out ∧
      Delivered cs (min (utf16 cs).length (k + (buffer.length - 1))) out.getdata := by
  obtain ⟨hbytes, hoffset, pre, post, rfl, hsource, hunits⟩ := hdelivered
  have hpending := pending_length_le getdata
  obtain ⟨s, hreturns, hdone⟩ := returns_chunk (utf8 pre).length (utf8 pre).length
    (buffer.length - 1) (pending getdata) (buffer.drop (pending getdata).length)
    { getdata with latestBytes := 0 } (utf8 (pre ++ post)) post
    (by simp; omega) (by omega) rfl (by rw [utf8_append, List.drop_left])
    (fun hnone => by simp [hbytes] at hnone)
  have hmore : getdata.dstBytes.any (· ≤ getdata.dstOffset) = false := by
    rw [hbytes, hoffset]
    simp only [Option.any_some, decide_eq_false_iff_not]
    omega
  refine ⟨_, copyWcharResult_of_returns _ hretrieve hvalue hbuffer hmore (by rw [hsource]; rfl)
    hreturns, ?_⟩
  rw [← hunits] at hdone
  refine delivers_of_chunkDone { getdata with latestBytes := 0 } _ _ _ _ hretrieve hbuffer ?_
    (Or.inr ⟨hbytes, hoffset⟩) hk.le hdone
  obtain ⟨x, buffer, rfl⟩ : ∃ x tail, buffer = x :: tail := by
    rcases buffer with - | ⟨x, tail⟩
    · simp at hbuffer
    · exact ⟨x, tail, rfl⟩
  rcases hlist : pending getdata with - | ⟨u, - | ⟨u', tail⟩⟩
  · rfl
  · rfl
  · simp [hlist] at hpending

/-- The first call delivers a chunk when it does not split a pair. -/
theorem copyWcharResult_first {opts : StmtOptions} {cs : List Char}
    {buffer : List SQLWCHAR} (hretrieve : opts.retrieveData = true)
    (hvalue : limitLength opts value = utf8 cs) (hbuffer : 2 ≤ buffer.length)
    (hfresh : Fresh getdata) (hsplit : ¬ SplitsPair cs (buffer.length - 1)) :
    ∃ out, copyWcharResult opts value getdata buffer = some out ∧
      DeliversChunk (utf16 cs) 0 buffer out ∧
      Delivered cs (min (utf16 cs).length (buffer.length - 1)) out.getdata := by
  obtain ⟨hsource, hlatest, hbytes⟩ := hfresh
  have hpending : pending getdata = [] := by simp [pending, hlatest]
  obtain ⟨s, hreturns, hdone⟩ := returns_chunk 0 0 (buffer.length - 1) (pending getdata)
    (buffer.drop (pending getdata).length) { getdata with latestBytes := 0 } (utf8 cs) cs
    (by simp [hpending]; omega) (by simp [hpending]) rfl (by simp)
    (fun _ => by simpa [hpending] using hsplit)
  have hmore : getdata.dstBytes.any (· ≤ getdata.dstOffset) = false := by simp [hbytes]
  refine ⟨_, copyWcharResult_of_returns _ hretrieve hvalue hbuffer hmore (by rw [hsource]; rfl)
    hreturns, ?_⟩
  rw [hpending] at hdone
  have := delivers_of_chunkDone { getdata with latestBytes := 0 } [] cs 0 buffer hretrieve hbuffer
    rfl
    (Or.inl ⟨hbytes, rfl⟩) (Nat.zero_le _) (by simpa using hdone)
  simpa using this

/-- What a sequence of calls delivers from the offset `k` of the units of a
value. The first call on a column always delivers, an empty value included;
the call after the last chunk returns `SQL_NO_DATA`. -/
def DeliversAll (units : List SQLWCHAR) (isFirst : Bool) (k : ℕ) :
    List (List SQLWCHAR) → List CopyOutcome → Prop
  | [], [] => True
  | buffer :: buffers, out :: outs =>
    if isFirst = false ∧ units.length ≤ k then
      out.rc = .SQL_NO_DATA_FOUND ∧ out.buffer = buffer ∧ DeliversAll units false k buffers outs
    else
      DeliversChunk units k buffer out ∧
        DeliversAll units false (min units.length (k + (buffer.length - 1))) buffers outs
  | _, _ => False

variable (getdata) in
theorem copyEnter_of_two_le {buffer : List SQLWCHAR} (hbuffer : 2 ≤ buffer.length)
    (hsource : getdata.source ≠ none) :
    (copyEnter buffer getdata).buffer = buffer ∧ (copyEnter buffer getdata).getdata = getdata := by
  obtain ⟨source, hsome⟩ := Option.ne_none_iff_exists'.mp hsource
  have hne : buffer.length ≠ 0 := by omega
  have hend : ¬ 0 = buffer.length - 1 := by omega
  obtain ⟨_, latest, latestBytes, dstBytes, dstOffset⟩ := getdata
  cases hsome
  simp [copyEnter, hne, hend]

/-- Once the length of the data is known, every call delivers the next chunk. -/
theorem retrieveAll_later {opts : StmtOptions} {cs : List Char} {k : ℕ}
    {buffers : List (List SQLWCHAR)} (hretrieve : opts.retrieveData = true)
    (hvalue : limitLength opts value = utf8 cs) (hbuffers : ∀ buffer ∈ buffers, 2 ≤ buffer.length)
    (hdelivered : Delivered cs k getdata) :
    ∃ outs, retrieveAll opts value getdata buffers = some outs ∧
      DeliversAll (utf16 cs) false k buffers outs := by
  induction buffers generalizing k getdata with
  | nil => exact ⟨[], rfl, trivial⟩
  | cons buffer buffers ih =>
    have hbuffer := hbuffers buffer (by simp)
    have hrest : ∀ buffer ∈ buffers, 2 ≤ buffer.length := fun b hb => hbuffers b (by simp [hb])
    rcases Nat.lt_or_ge k (utf16 cs).length with hk | hk
    · obtain ⟨out, hout, hchunk, hnext⟩ :=
        copyWcharResult_later hretrieve hvalue hbuffer hdelivered hk
      obtain ⟨outs, houts, hall⟩ := ih hrest hnext
      refine ⟨out :: outs, by simp [retrieveAll, hout, houts], ?_⟩
      rw [DeliversAll, if_neg (by omega)]
      exact ⟨hchunk, hall⟩
    · obtain ⟨outs, houts, hall⟩ := ih hrest hdelivered
      have hend : getdata.dstBytes.any (· ≤ getdata.dstOffset) = true := by
        rw [hdelivered.dstBytes, hdelivered.dstOffset]
        simp only [Option.any_some, decide_eq_true_eq]
        omega
      obtain ⟨_, _, _, hsource, _⟩ := hdelivered.source
      obtain ⟨hbuf, hget⟩ := copyEnter_of_two_le getdata hbuffer (by simp [hsource])
      refine ⟨⟨.SQL_NO_DATA_FOUND, buffer, none, getdata, (copyEnter buffer getdata).inBounds⟩ ::
        outs, ?_, ?_⟩
      · simp only [retrieveAll, copyWcharResult, hend, if_true, hbuf, hget]
        simp [houts]
      · rw [DeliversAll, if_pos ⟨rfl, hk⟩]
        exact ⟨rfl, rfl, hall⟩

variable (free getdata) in
/-- A loop that splits a pair while it counts latches the second unit and leaves
the source in front of the pair. -/
theorem returns_splits {pre : List Char} (post : List Char) {c : Char} (hc : IsPair c)
    (hlen : resultEnd = (utf16 pre).length + 1) (hfree : free.length = resultEnd + 1)
    (hbytes : getdata.dstBytes = none) :
    ∃ s, Returns (convertBody true (utf8 (pre ++ c :: post)) resultEnd)
        ((filling 0 0 [] free 0 getdata).closeAtEnd true resultEnd) (s, true) ∧
      s.getdata = { getdata with source := some (utf8 pre).length, latest := lowUnit c,
                                 latestBytes := 2 } ∧
      s.usedChars = (utf16 (pre ++ c :: post)).length := by
  have hdrop : (utf8 (pre ++ c :: post)).drop (0 + (utf8 pre).length) =
      String.utf8EncodeChar c ++ utf8 post := by
    rw [Nat.zero_add, utf8_append, List.drop_left, utf8_cons]
  have hfits := reaches_fits 0 0 0 resultEnd [] free getdata (utf8 (pre ++ c :: post)) pre
    (utf8 (c :: post)) (by simpa using hfree) (by simp; omega)
    (by simp; omega) (by simp)
  rw [closeAtEnd_filling_of_lt _ _ _ ([] ++ utf16 pre) _ _ (by simp; omega)] at hfits
  have hstep := convertBody_splits (0 + (utf8 pre).length) (0 + (utf16 pre).length) resultEnd
    ([] ++ utf16 pre) (free.drop (utf16 pre).length) getdata hc (by simp; omega)
    (by simp; omega) hdrop
  rw [if_neg (by simp [hbytes])] at hstep
  rw [closeAtEnd_filling_of_lt _ _ _ _ _ _ (by simp; omega)]
  refine ⟨_, hfits.returns_iff.mpr ((returns_next_iff hstep).mpr
    (returns_count _ rfl (?_ : _ = utf8 post))), ?_, ?_⟩
  · simp only [latched]
    rw [← List.drop_drop, hdrop, List.drop_left]
  · simp [latched]
  · simp [latched, utf16Char_of_isPair hc]
    omega

/-- The data kept after a first call that splits a pair. -/
theorem copyWcharResult_first_splits {opts : StmtOptions} {pre post : List Char} {c : Char}
    {buffer : List SQLWCHAR} (hretrieve : opts.retrieveData = true)
    (hvalue : limitLength opts value = utf8 (pre ++ c :: post)) (hc : IsPair c)
    (hlen : buffer.length - 1 = (utf16 pre).length + 1) (hfresh : Fresh getdata) :
    ∃ out, copyWcharResult opts value getdata buffer = some out ∧
      out.getdata = ⟨some (utf8 pre).length, lowUnit c, 2,
        some ((utf16 (pre ++ c :: post)).length * 2), ((utf16 pre).length + 1) * 2⟩ := by
  obtain ⟨hsource, hlatest, hbytes⟩ := hfresh
  have hpending : pending getdata = [] := by simp [pending, hlatest]
  have hmore : getdata.dstBytes.any (· ≤ getdata.dstOffset) = false := by simp [hbytes]
  obtain ⟨s, hreturns, hget, hused⟩ := returns_splits buffer
    { getdata with latestBytes := 0 } post hc hlen (by omega) hbytes
  refine ⟨_, copyWcharResult_of_returns 0 hretrieve hvalue (by omega) hmore
    (by rw [hsource]; rfl) (by rw [hpending]; exact hreturns), ?_⟩
  have hnone : s.getdata.dstBytes = none := by rw [hget]; exact hbytes
  have hunits : (utf16 pre).length + 1 ≤ (utf16 (pre ++ c :: post)).length := by
    simp [utf16Char_of_isPair hc]
  rw [copyFinish_eq ((utf16 (pre ++ c :: post)).length * 2) hretrieve (by omega) rfl]
  · simp only [hbytes, if_true, hused, hget, hlen, Nat.min_eq_left hunits, Nat.zero_add]
  · simp only [hnone, if_true, hused]

/-- The call after a first call that splits a pair copies the second unit, and
then the whole pair again. -/
theorem copyWcharResult_repeats {opts : StmtOptions} {pre post : List Char} {c : Char} {n : ℕ}
    (buffer : List SQLWCHAR) (hretrieve : opts.retrieveData = true)
    (hvalue : limitLength opts value = utf8 (pre ++ c :: post)) (hbuffer : 2 ≤ buffer.length)
    (hn : n < (utf16 (pre ++ c :: post)).length * 2) :
    ∃ out, copyWcharResult opts value ⟨some (utf8 pre).length, lowUnit c, 2,
        some ((utf16 (pre ++ c :: post)).length * 2), n⟩ buffer = some out ∧
      out.buffer = (lowUnit c :: utf16 (c :: post)).take (buffer.length - 1) ++
        0 :: (lowUnit c :: buffer.drop 1).drop
          (min (buffer.length - 1) (lowUnit c :: utf16 (c :: post)).length + 1) := by
  obtain ⟨s, hreturns, hdone⟩ := returns_chunk (utf8 pre).length (utf8 pre).length
    (buffer.length - 1) [lowUnit c] (buffer.drop 1) ⟨some (utf8 pre).length, lowUnit c, 0,
      some ((utf16 (pre ++ c :: post)).length * 2), n⟩ (utf8 (pre ++ c :: post)) (c :: post)
    (by simp; omega) (by simp; omega) rfl (by rw [utf8_append, List.drop_left]) (by simp)
  refine ⟨_, copyWcharResult_of_returns ((utf8 pre).length) hretrieve hvalue hbuffer
    (by simpa using hn) rfl hreturns, ?_⟩
  rw [copyFinish_eq ((utf16 (pre ++ c :: post)).length * 2) hretrieve (by omega) rfl]
  · exact hdone.buffer_eq
  · rw [if_neg (by rw [hdone.dstBytes]; simp), hdone.dstBytes]

/-- Every sequence of calls delivers the units of the value without loss exactly
when the buffer of the first call does not end inside a surrogate pair. -/
theorem retrieveAll_delivers_iff (opts : StmtOptions) (value : List UInt8) (cs : List Char)
    (getdata : GetData) (first : List SQLWCHAR) (hretrieve : opts.retrieveData = true)
    (hvalue : limitLength opts value = utf8 cs) (hfresh : Fresh getdata)
    (hfirst : 2 ≤ first.length) :
    (∀ later : List (List SQLWCHAR), (∀ buffer ∈ later, 2 ≤ buffer.length) →
      ∃ outs, retrieveAll opts value getdata (first :: later) = some outs ∧
        DeliversAll (utf16 cs) true 0 (first :: later) outs) ↔
      ¬ SplitsPair cs (first.length - 1) := by
  constructor
  · rintro hall ⟨pre, c, post, rfl, hc, hlen⟩
    -- a second buffer of NULs that is longer than all that can be copied
    generalize hunits : utf16 (pre ++ c :: post) = units at hall
    have hparts : units = (utf16 pre ++ [highUnit c]) ++ lowUnit c :: utf16 post := by
      simp [← hunits, utf16Char_of_isPair hc]
    have hdrop : units.drop (first.length - 1) = lowUnit c :: utf16 post := by
      have hlen' : (utf16 pre ++ [highUnit c]).length = first.length - 1 := by simp [hlen]
      rw [hparts, ← hlen', List.drop_left]
    obtain ⟨out, hout, hget⟩ := copyWcharResult_first_splits hretrieve hvalue hc hlen hfresh
    obtain ⟨out', hout', hbuf'⟩ := copyWcharResult_repeats (n := ((utf16 pre).length + 1) * 2)
      (List.replicate (units.length + 5) 0) hretrieve hvalue (by simp)
      (by rw [hunits, hparts]; simp)
    obtain ⟨outs, houts, hdelivers⟩ := hall [List.replicate (units.length + 5) 0] (by simp)
    rw [← hget] at hout'
    simp only [retrieveAll, hout, hout', Option.bind_eq_bind, Option.bind_some,
      Option.some.injEq] at houts
    subst houts
    have hlenUnits : first.length - 1 < units.length := by
      rw [hparts]
      simp [hlen]
    rw [DeliversAll, if_neg (by simp), DeliversAll, if_neg (by omega)] at hdelivers
    have hexpected := hdelivers.2.1.buffer_eq
    rw [Nat.zero_add, Nat.min_eq_right hlenUnits.le, hdrop, hbuf'] at hexpected
    -- the pair is there once more
    have hhigh : highUnit c ≠ 0 := highUnit_ne_zero c
    have hcount := congrArg (List.count (highUnit c)) hexpected
    have hpostLen : (utf16 post).length + 2 ≤ units.length := by
      rw [hparts]
      simp
    rw [List.take_of_length_le (by simp [utf16Char_of_isPair hc]; omega),
      List.take_of_length_le (by simp; omega)] at hcount
    simp only [List.drop_succ_cons, List.drop_replicate, List.count_append, List.count_cons,
      List.count_replicate, utf16_cons, utf16Char_of_isPair hc, List.count_nil, beq_iff_eq,
      Ne.symm hhigh, if_false, if_true] at hcount
    omega
  · intro hsplit later hlater
    obtain ⟨out, hout, hchunk, hnext⟩ :=
      copyWcharResult_first hretrieve hvalue hfirst hfresh hsplit
    obtain ⟨outs, houts, hrest⟩ := retrieveAll_later hretrieve hvalue hlater hnext
    refine ⟨out :: outs, by simp [retrieveAll, hout, houts], ?_⟩
    rw [DeliversAll, if_neg (by simp), Nat.zero_add]
    exact ⟨hchunk, hrest⟩

/-- The column before the first call. -/
def freshGetData : GetData := ⟨none, 0, 0, none, ulongSize - 1⟩

/-- A text with a surrogate pair in the middle. -/
def pairText : List Char := ['a', '😀', 'b']

/-- With a first buffer for three units, the pair of `pairText` is complete. -/
theorem retrieveAll_delivers_iff_pairText :
    (StmtOptions.mk 0 true).retrieveData = true ∧
    limitLength ⟨0, true⟩ (utf8 pairText) = utf8 pairText ∧ Fresh freshGetData ∧
    ∀ later : List (List SQLWCHAR), (∀ buffer ∈ later, 2 ≤ buffer.length) →
      ∃ outs, retrieveAll ⟨0, true⟩ (utf8 pairText) freshGetData ([0, 0, 0, 0] :: later) =
          some outs ∧
        DeliversAll (utf16 pairText) true 0 ([0, 0, 0, 0] :: later) outs := by
  have hfresh : Fresh freshGetData := ⟨rfl, rfl, rfl⟩
  refine ⟨rfl, rfl, hfresh, (retrieveAll_delivers_iff ⟨0, true⟩ (utf8 pairText) pairText
    freshGetData [0, 0, 0, 0] rfl rfl hfresh (by decide)).mpr ?_⟩
  rintro ⟨pre, c, post, hcs, hc, hlen⟩
  rcases pre with - | ⟨a, - | ⟨b, pre⟩⟩
  · simp at hlen
  · obtain ⟨rfl, -⟩ := List.cons.inj hcs
    exact absurd hlen (by decide)
  · have hcons : pairText = a :: b :: (pre ++ c :: post) := hcs
    simp only [pairText, List.cons.injEq] at hcons
    obtain ⟨rfl, rfl, -⟩ := hcons
    have hpair : (utf16Char 'a' ++ utf16Char '😀').length = 3 := by decide
    simp only [utf16_cons, ← List.append_assoc, List.length_append, List.length_cons,
      List.length_nil] at hlen hpair
    omega

set_option maxRecDepth 20000 in
/-- With a first buffer for two units, the second call repeats the pair, and
the last character is lost. -/
theorem retrieveAll_pairText_not_delivers :
    ¬ ∃ outs, retrieveAll ⟨0, true⟩ (utf8 pairText) freshGetData [[0, 0, 0], [0, 0, 0]] =
        some outs ∧
      DeliversAll (utf16 pairText) true 0 [[0, 0, 0], [0, 0, 0]] outs := by
  have hrun : (retrieveAll ⟨0, true⟩ (utf8 pairText) freshGetData [[0, 0, 0], [0, 0, 0]]).map
      (·.map CopyOutcome.buffer) = some [[97, 0xD83D, 0], [0xDE00, 0xD83D, 0]] := by
    decide +kernel
  rintro ⟨outs, houts, hdelivers⟩
  rw [houts] at hrun
  rcases outs with - | ⟨out, - | ⟨out', - | ⟨out'', outs⟩⟩⟩
  · simp at hrun
  · simp at hrun
  · simp only [Option.map_some, List.map_cons, List.map_nil, Option.some.injEq, List.cons.injEq,
      and_true] at hrun
    rw [DeliversAll, if_neg (by simp), DeliversAll, if_neg (by decide)] at hdelivers
    have hexpected := hdelivers.2.1.buffer_eq
    rw [hrun.2] at hexpected
    exact absurd hexpected (by decide +kernel)
  · simp at hrun

end MatrixOdbc.Driver
