import MatrixOdbc.Driver.BoundParam
import MatrixOdbc.Driver.Prepare
import MatrixOdbc.Util.WideAccounts

/-!
# Wide parameters

The case `SQL_C_WCHAR` of `convert_c_type2str` of `driver/execute.cc`. The length of the value
is cut to an `SQLINTEGER`, and the encoder ends at the first unit that it cannot decode and returns
what it has so far as a success. The only error is the one for a character of four bytes
that an old server does not know.
-/

namespace MatrixOdbc.Driver

open Util Utf WhileLoop Splitting

variable {mem : List SQLWCHAR} {u8 : List UInt8} {p i k strEnd fuel : ℕ} {used own : Bool}

/-- A value of type `SQL_C_WCHAR` and what `convert_c_type2str` finds besides it: the blocks
that can be allocated, the buffer of its caller and the version of the server. -/
structure WideParam where
  value : List SQLWCHAR
  allocator : Allocator
  buff : List UInt8
  buffMax : ℕ
  buffMax_le : buffMax ≤ buff.length
  serverVersion : Version

/-- What becomes of a value: a text, an error with its SQLSTATE and message, a null pointer, which the
caller reports as a memory error, or nothing that the language defines. -/
inductive WideOutcome where
  | text (text : List UInt8)
  | error (sqlstate message : String)
  | null
  | undefined

/-- `int_len`: the number of units as an `SQLINTEGER`. -/
def intLen (value : List SQLWCHAR) : ℤ := (value.length : ℤ).bmod (2 ^ 32)

/-- The case `SQL_C_WCHAR` of `convert_c_type2str`, with the units `behind` in the memory behind
the value. -/
def WideParam.convert (c : WideParam) (behind : List SQLWCHAR) : WideOutcome :=
  -- `*len * MAX_BYTES_PER_UTF8_CP` is computed in an `SQLINTEGER`
  if 2 ^ 31 ≤ intLen c.value * MAX_BYTES_PER_UTF8_CP then .undefined
  else
    match sqlwcharAsUtf8Ext c.allocator.bytes (some (c.value ++ behind)) (some (intLen c.value))
      (some c.buff) c.buffMax false with
    | none => .undefined
    | some res =>
      if res.utf8mb4Used && !isMinimumVersion c.serverVersion ⟨5, 5, 3⟩ then
        .error "HY000" "Server does not support 4-byte encoded UTF8 characters."
      else
        match res.u8 with
        | none => .null
        | some u8 => .text (u8.take res.len.toNat)

/-- The outcome as `insert_param` goes on with it. -/
def WideOutcome.toExcept : WideOutcome → Except Failure (List UInt8)
  | .text t => .ok t
  | .error sqlstate message => .error (.error sqlstate message)
  | .null => .error (.error "HY001" "Memory allocation error")
  | .undefined => .error .undefined

/-- Whatever is behind the value, there is an error or a text that accounts for every unit. -/
def WideParam.LosesNothing (own : Bool) (c : WideParam) : Prop := ∀ behind,
  (∃ sqlstate message, c.convert behind = .error sqlstate message) ∨ c.convert behind = .null ∨
    ∃ text, c.convert behind = .text text ∧ Accounts own c.value text

/-- The units at an offset are the two of one character. -/
def PairAt (mem : List SQLWCHAR) (k : ℕ) : Prop :=
  IsHigh (charAt mem k) ∧ IsLow (charAt mem (k + 1))

/-- The unit at an offset is a first surrogate without its second one, where the encoder ends. -/
def StopsAt (mem : List SQLWCHAR) (k : ℕ) : Prop :=
  IsHigh (charAt mem k) ∧ ¬ IsLow (charAt mem (k + 1))

/-- The encoder meets a character of four bytes before it ends. -/
def FourByteFrom (mem : List SQLWCHAR) (p strEnd : ℕ) : Prop :=
  ∃ k, p ≤ k ∧ k < strEnd ∧ PairAt mem k ∧ ∀ j, p ≤ j → j < k → ¬ StopsAt mem j

/-- The block that the text is written to. -/
def WideParam.block (c : WideParam) (chars : ℕ) : Option (List UInt8) :=
  if c.buffMax < chars * MAX_BYTES_PER_UTF8_CP then
    c.allocator.bytes (MAX_BYTES_PER_UTF8_CP * chars + 1)
  else some c.buff

/-- There is an error: the block cannot be allocated, or an old server gets a character of
four bytes. -/
def WideParam.Reports (c : WideParam) : Prop :=
  0 < intLen c.value ∧ intLen c.value < 2 ^ 29 ∧
    (c.block (intLen c.value).toNat = none ∨
      isMinimumVersion c.serverVersion ⟨5, 5, 3⟩ = false ∧
        FourByteFrom c.value 0 (intLen c.value).toNat)

/-- The encoder ends at a first surrogate without its second one. -/
theorem utf16toutf32_stops (h : StopsAt mem p) : (utf16toutf32 (mem.drop p)).1 = 0 := by
  obtain ⟨hhigh, hnot⟩ := h
  have hrange : 0xd800 ≤ (charAt mem (p + 0)).toNat ∧ (charAt mem (p + 0)).toNat ≤ 0xdbff := hhigh
  have hout : (charAt mem (p + 1)).toNat < 0xdc00 ∨ 0xdfff < (charAt mem (p + 1)).toNat := by
    unfold IsLow at hnot
    omega
  rw [utf16toutf32, charAt_drop, charAt_drop, if_pos hrange]
  exact congrArg Prod.fst (if_pos hout)

/-- A character of two units is written as four bytes. -/
theorem length_utf8EncodeChar_readAs {c : Char} (h : IsPair c) :
    (String.utf8EncodeChar (readAs c)).length = 4 := by
  have hlarge : 0xFFFF < (readAs c).toNat := by
    unfold IsPair at h
    by_cases heven : InEvenPlane c
    · have hplane := heven.2
      rw [toNat_readAs heven]
      omega
    · rwa [readAs_of_not_inEvenPlane heven]
  have hval : (readAs c).val.toNat = (readAs c).toNat := rfl
  rw [String.utf8EncodeChar, hval, if_neg (by omega), if_neg (by omega), if_neg (by omega)]
  rfl

/-- Two surrogates become a character of four bytes. -/
theorem utf16toutf32_pair (h : PairAt mem p) :
    (utf16toutf32 (mem.drop p)).1 = 2 ∧
      (utf32toutf8 (utf16toutf32 (mem.drop p)).2).length = 4 := by
  obtain ⟨hhigh, hlow⟩ := h
  have hne : mem.drop p ≠ [] := by
    intro hnil
    have hzero := charAt_drop mem p 0
    rw [hnil, charAt_nil, Nat.add_zero] at hzero
    rw [← hzero] at hhigh
    exact absurd hhigh (by decide)
  obtain ⟨u, rest, hcons⟩ := List.exists_cons_of_ne_nil hne
  have hfirst : charAt mem p = u := by
    have hzero := charAt_drop mem p 0
    rw [hcons, charAt_cons_zero, Nat.add_zero] at hzero
    exact hzero.symm
  have hsecond : charAt mem (p + 1) = charAt rest 0 := by
    have hone := charAt_drop mem p 1
    rw [hcons, charAt_cons_succ] at hone
    exact hone.symm
  rw [hfirst] at hhigh
  rw [hsecond] at hlow
  have htwo : characterLength (mem.drop p) = 2 := by
    rw [hcons, characterLength, if_pos hhigh, if_pos hlow]
  have hfits := characterLength_fits (mem.drop p)
  have htake : ((mem.drop p).take 2).length = 2 := by
    rw [List.length_take]
    omega
  obtain ⟨c, hc⟩ | ⟨v, -, hv⟩ := piece_cases (by omega : 0 < characterLength (mem.drop p))
  · rw [htwo] at hc
    have hpair : IsPair c := by
      by_contra hnot
      rw [hc, utf16Char_of_not_isPair hnot] at htake
      exact absurd htake (by simp)
    have hdrop : mem.drop p = utf16Char c ++ (mem.drop p).drop 2 := by
      rw [← hc, List.take_append_drop]
    rw [hdrop, utf16toutf32_utf16Char]
    dsimp only
    rw [utf32toutf8_toNat (toNat_readAs_lt c), length_utf8EncodeChar_readAs hpair, ← hc]
    exact ⟨htake, rfl⟩
  · rw [htwo] at hv
    rw [hv] at htake
    exact absurd htake (by simp)

/-- Another unit is a character of three bytes at most. -/
theorem utf16toutf32_single (h : ¬ IsHigh (charAt mem p)) :
    (utf16toutf32 (mem.drop p)).1 = 1 ∧
      (utf32toutf8 (utf16toutf32 (mem.drop p)).2).length < 4 := by
  have hrange : ¬ (0xd800 ≤ (charAt mem (p + 0)).toNat ∧ (charAt mem (p + 0)).toNat ≤ 0xdbff) := h
  have hlt := (charAt mem (p + 0)).toNat_lt
  rw [utf16toutf32, charAt_drop, if_neg hrange]
  refine ⟨rfl, ?_⟩
  generalize (charAt mem (p + 0)).toNat = v at *
  rw [utf32toutf8]
  split_ifs
  · simp
  · simp [utf32toutf8Tail]
  · simp [utf32toutf8Tail]

/-- From a first surrogate that stands alone there is no character of four bytes to meet. -/
theorem not_fourByteFrom_of_stopsAt (h : StopsAt mem p) : ¬ FourByteFrom mem p strEnd := by
  rintro ⟨k, hpk, -, hpair, hstops⟩
  rcases Nat.eq_or_lt_of_le hpk with rfl | hlt
  · exact h.2 hpair.2
  · exact hstops p (Nat.le_refl _) hlt h

/-- Past a unit that is no first surrogate the question is the same. -/
theorem fourByteFrom_single (h : ¬ IsHigh (charAt mem p)) :
    FourByteFrom mem p strEnd ↔ FourByteFrom mem (p + 1) strEnd := by
  constructor
  · rintro ⟨k, hpk, hk, hpair, hstops⟩
    rcases Nat.eq_or_lt_of_le hpk with rfl | hlt
    · exact absurd hpair.1 h
    · exact ⟨k, hlt, hk, hpair, fun j hj => hstops j (by omega)⟩
  · rintro ⟨k, hpk, hk, hpair, hstops⟩
    refine ⟨k, by omega, hk, hpair, fun j hj hjk hstop => ?_⟩
    rcases Nat.eq_or_lt_of_le hj with rfl | hlt
    · exact h hstop.1
    · exact hstops j hlt hjk hstop

/-- Behind the last unit the encoder ends. -/
theorem encodeBody_done {s : EncodeState} (h : strEnd ≤ s.str) :
    encodeBody mem strEnd s = .done s := if_pos h

/-- The encoder returns with four bytes a unit at most, and the flag tells whether it has met a
character of four bytes. -/
theorem run_encodeBody_used (hfuel : strEnd - p < fuel) :
    ∃ s, run (encodeBody mem strEnd) fuel ⟨p, i, u8, used⟩ = some s ∧
      s.i ≤ i + (strEnd - p) * MAX_BYTES_PER_UTF8_CP ∧
        (s.utf8mb4Used = true ↔ used = true ∨ FourByteFrom mem p strEnd) := by
  induction fuel generalizing p i u8 used with
  | zero => omega
  | succ fuel ih =>
    by_cases hend : strEnd ≤ p
    · have hdone := @encodeBody_done mem strEnd ⟨p, i, u8, used⟩ hend
      refine ⟨_, run_succ_done hdone fuel, Nat.le_add_right _ _, Or.inl, ?_⟩
      rintro (hused | ⟨k, hpk, hk, -⟩)
      · exact hused
      · omega
    have hbody : encodeBody mem strEnd ⟨p, i, u8, used⟩ =
        if (utf16toutf32 (mem.drop p)).1 = 0 then .done ⟨p, i, u8, used⟩
        else .next ⟨p + (utf16toutf32 (mem.drop p)).1,
          i + (utf32toutf8 (utf16toutf32 (mem.drop p)).2).length,
          Buffer.store u8 i (utf32toutf8 (utf16toutf32 (mem.drop p)).2),
          used || (utf32toutf8 (utf16toutf32 (mem.drop p)).2).length == 4⟩ := by
      rw [encodeBody, if_neg hend]
    simp only [MAX_BYTES_PER_UTF8_CP] at ih ⊢
    by_cases hhigh : IsHigh (charAt mem p)
    · by_cases hlow : IsLow (charAt mem (p + 1))
      · obtain ⟨htwo, hfour⟩ := utf16toutf32_pair ⟨hhigh, hlow⟩
        have hmeets : FourByteFrom mem p strEnd :=
          ⟨p, Nat.le_refl _, by omega, ⟨hhigh, hlow⟩, fun j hj hjp => by omega⟩
        rw [if_neg (by omega), htwo, hfour] at hbody
        obtain ⟨s, hrun, hi, hused⟩ := @ih
          (Buffer.store u8 i (utf32toutf8 (utf16toutf32 (mem.drop p)).2)) (p + 2) (i + 4)
          (used || 4 == 4) (by omega)
        refine ⟨s, (run_succ_next hbody fuel).trans hrun, by omega, ?_⟩
        exact iff_of_true (hused.mpr (Or.inl (Bool.or_true _))) (Or.inr hmeets)
      · have hstop : StopsAt mem p := ⟨hhigh, hlow⟩
        rw [if_pos (utf16toutf32_stops hstop)] at hbody
        refine ⟨_, run_succ_done hbody fuel, Nat.le_add_right _ _, ?_⟩
        simp [not_fourByteFrom_of_stopsAt hstop]
    · obtain ⟨hone, hthree⟩ := utf16toutf32_single hhigh
      have hnot : ((utf32toutf8 (utf16toutf32 (mem.drop p)).2).length == 4) = false := by
        rw [beq_eq_false_iff_ne]
        omega
      rw [if_neg (by omega), hone, hnot, Bool.or_false] at hbody
      obtain ⟨s, hrun, hi, hused⟩ := @ih
        (Buffer.store u8 i (utf32toutf8 (utf16toutf32 (mem.drop p)).2)) (p + 1)
        (i + (utf32toutf8 (utf16toutf32 (mem.drop p)).2).length) used (by omega)
      refine ⟨s, (run_succ_next hbody fuel).trans hrun, by omega, ?_⟩
      rw [hused, fourByteFrom_single hhigh]

/-- The encoder leaves the bytes of the characters at the front of a value, if nothing behind
the value can be taken for a part of it. -/
theorem run_encodeBody_text (xs : List SQLWCHAR) {behind : List SQLWCHAR}
    (hdrop : mem.drop p = xs ++ behind) (hend : p + xs.length = strEnd)
    (hbehind : unpaired xs = [] ∨ behind = [])
    (hroom : i + xs.length * MAX_BYTES_PER_UTF8_CP ≤ u8.length) (hfuel : xs.length < fuel) :
    ∃ s, run (encodeBody mem strEnd) fuel ⟨p, i, u8, used⟩ = some s ∧
      s.u8.take s.i = u8.take i ++ encoded xs := by
  induction xs using induction_on characterLength_fits generalizing p i u8 used fuel with
  | rest xs h =>
    obtain ⟨fuel, rfl⟩ : ∃ n, fuel = n + 1 := ⟨fuel - 1, by omega⟩
    rw [encoded_of_zero h, List.append_nil]
    rw [unpaired_of_zero h] at hbehind
    by_cases hnil : xs = []
    · have hdone : strEnd ≤ p := by
        rw [hnil, List.length_nil] at hend
        omega
      exact ⟨_, run_succ_done (encodeBody_done hdone) fuel, rfl⟩
    · obtain rfl := hbehind.resolve_left hnil
      have hpos := List.length_pos_iff.mpr hnil
      have hzero : (utf16toutf32 (mem.drop p)).1 = 0 := by
        rw [hdrop, List.append_nil, ← characterLength_eq hnil, h]
      have hbody : encodeBody mem strEnd ⟨p, i, u8, used⟩ = .done ⟨p, i, u8, used⟩ := by
        rw [encodeBody, if_neg (by dsimp only; omega)]
        exact if_pos hzero
      exact ⟨_, run_succ_done hbody fuel, rfl⟩
  | piece xs h ih =>
    obtain ⟨fuel, rfl⟩ : ∃ n, fuel = n + 1 := ⟨fuel - 1, by omega⟩
    have hfits := characterLength_fits xs
    have hsize := length_utf32toutf8_le (utf16toutf32 xs).2
    have hless : (xs.drop (characterLength xs)).length + characterLength xs = xs.length := by
      rw [List.length_drop]
      omega
    simp only [MAX_BYTES_PER_UTF8_CP] at hroom ih
    have hread : utf16toutf32 (xs ++ behind) = (characterLength xs, (utf16toutf32 xs).2) :=
      utf16toutf32_of_within (utf16toutf32Within_of_character h)
    have hstore : i + (utf32toutf8 (utf16toutf32 xs).2).length ≤ u8.length := by omega
    have hbody : encodeBody mem strEnd ⟨p, i, u8, used⟩ =
        .next ⟨p + characterLength xs, i + (utf32toutf8 (utf16toutf32 xs).2).length,
          Buffer.store u8 i (utf32toutf8 (utf16toutf32 xs).2),
          used || (utf32toutf8 (utf16toutf32 xs).2).length == 4⟩ := by
      rw [encodeBody, if_neg (by dsimp only; omega), hdrop, hread]
      exact if_neg (Nat.ne_of_gt h)
    have hlater : mem.drop (p + characterLength xs) = xs.drop (characterLength xs) ++ behind := by
      rw [← List.drop_drop, hdrop, List.drop_append_of_le_length hfits]
    have hroom' : i + (utf32toutf8 (utf16toutf32 xs).2).length +
        (xs.drop (characterLength xs)).length * 4 ≤
          (Buffer.store u8 i (utf32toutf8 (utf16toutf32 xs).2)).length := by
      rw [Buffer.length_store hstore]
      omega
    rw [unpaired_of_pos h] at hbehind
    obtain ⟨s, hrun, htext⟩ := @ih _ (p + characterLength xs) _ fuel
      (used || (utf32toutf8 (utf16toutf32 xs).2).length == 4) hlater (by omega) hbehind hroom' (by omega)
    refine ⟨s, (run_succ_next hbody fuel).trans hrun, ?_⟩
    rw [htext, Buffer.take_store hstore, encoded_of_pos h, List.append_assoc]

/-- The end of the value is where the encoder would read on, so the question is one about the
value. -/
theorem fourByteFrom_append {value : List SQLWCHAR} (behind : List SQLWCHAR)
    (h : FourByteFrom value p strEnd) :
    FourByteFrom (value ++ behind) p strEnd := by
  have hinside : ∀ {j}, j < value.length → charAt (value ++ behind) j = charAt value j := by
    intro j hj
    rw [charAt, charAt, List.getD_eq_getElem?_getD, List.getD_eq_getElem?_getD,
      List.getElem?_append_left hj]
  obtain ⟨k, hpk, hlt, ⟨hhigh, hlow⟩, hstops⟩ := h
  have hnext : k + 1 < value.length := by
    by_contra hge
    rw [charAt, List.getD_eq_getElem?_getD, List.getElem?_eq_none (by omega)] at hlow
    exact absurd hlow (by decide)
  refine ⟨k, hpk, hlt, ⟨?_, ?_⟩, fun j hj hjk hstop => hstops j hj hjk ⟨?_, ?_⟩⟩
  · rwa [hinside (by omega)]
  · rwa [hinside hnext]
  · rw [← hinside (by omega)]
    exact hstop.1
  · rw [← hinside (by omega)]
    exact hstop.2

/-- The block in the call of `convert_c_type2str`. -/
theorem WideParam.block_eq (c : WideParam) (chars : ℕ) :
    (if (some c.buff).isNone = true ∨ c.buffMax < chars * MAX_BYTES_PER_UTF8_CP then
      c.allocator.bytes (MAX_BYTES_PER_UTF8_CP * chars + 1) else some c.buff) = c.block chars := by
  simp [block]

section

variable (c : WideParam) (behind : List SQLWCHAR) {chars : ℕ} (hlen : intLen c.value = chars)
  (hpos : 0 < chars) (hlt : chars < 2 ^ 29)

include hlen hpos hlt

/-- Without a block there is a null pointer. -/
theorem convert_of_block_none (hblock : c.block chars = none) : c.convert behind = .null := by
  have hproduct : ¬ (2 : ℤ) ^ 31 ≤ (chars : ℤ) * MAX_BYTES_PER_UTF8_CP := by
    simp only [MAX_BYTES_PER_UTF8_CP]
    omega
  have hnonempty : ¬ (chars : ℤ) ≤ 0 := by omega
  rw [WideParam.convert, hlen, if_neg hproduct, sqlwcharAsUtf8Ext]
  simp only [Option.getD_some, if_neg hnonempty, Int.toNat_natCast, c.block_eq, hblock]
  rfl

/-- With a block there is the error or the text that the encoder has written. -/
theorem convert_of_block_some {u8 : List UInt8} {s : EncodeState} (hblock : c.block chars = some u8)
    (hrun : run (encodeBody (c.value ++ behind) chars) (chars + 1) ⟨0, 0, u8, false⟩ = some s) :
    c.convert behind =
      if s.utf8mb4Used && !isMinimumVersion c.serverVersion ⟨5, 5, 3⟩ then
        .error "HY000" "Server does not support 4-byte encoded UTF8 characters."
      else .text (s.u8.take s.i) := by
  have hproduct : ¬ (2 : ℤ) ^ 31 ≤ (chars : ℤ) * MAX_BYTES_PER_UTF8_CP := by
    simp only [MAX_BYTES_PER_UTF8_CP]
    omega
  have hnonempty : ¬ (chars : ℤ) ≤ 0 := by omega
  rw [WideParam.convert, hlen, if_neg hproduct, sqlwcharAsUtf8Ext]
  simp only [Option.getD_some, if_neg hnonempty, Int.toNat_natCast, c.block_eq, hblock, hrun,
    Option.map_some]

end

/-- The block has room for four bytes a unit. -/
theorem WideParam.block_length {c : WideParam} {chars : ℕ} {u8 : List UInt8}
    (h : c.block chars = some u8) : chars * MAX_BYTES_PER_UTF8_CP ≤ u8.length := by
  rw [block] at h
  split_ifs at h with hmalloc
  · rw [c.allocator.bytes_length _ _ h]
    simp only [MAX_BYTES_PER_UTF8_CP]
    omega
  · have := c.buffMax_le
    rw [← Option.some.inj h]
    omega

/-- Where an error is due it is reported, whatever is behind the value. -/
theorem losesNothing_of_reports {c : WideParam} (h : c.Reports) : c.LosesNothing own := by
  obtain ⟨hpos, hlt, hcause⟩ := h
  obtain ⟨chars, hlen⟩ : ∃ chars : ℕ, intLen c.value = chars := ⟨(intLen c.value).toNat, by omega⟩
  rw [hlen, Int.toNat_natCast] at hcause
  intro behind
  cases hblock : c.block chars with
  | none => exact Or.inr (Or.inl (convert_of_block_none c behind hlen (by omega) (by omega) hblock))
  | some u8 =>
    rw [hblock] at hcause
    obtain ⟨hold, hfour⟩ := hcause.resolve_left (by simp)
    obtain ⟨s, hrun, -, hused⟩ := @run_encodeBody_used (c.value ++ behind) u8 0 0 chars (chars + 1)
      false (by omega)
    have hmet := hused.mpr (Or.inr (fourByteFrom_append behind hfour))
    have hconvert := convert_of_block_some c behind hlen (by omega) (by omega) hblock hrun
    rw [hmet, hold] at hconvert
    exact Or.inl ⟨_, _, hconvert⟩

/-- Without an error the text is too short, or it is what the encoder makes of the characters at
the front. -/
theorem text_of_not_reports {c : WideParam} {chars : ℕ} (hlen : intLen c.value = chars)
    (hpos : 0 < chars) (hlt : chars < 2 ^ 29) (hnot : ¬ c.Reports) :
    ∃ u8 s, run (encodeBody c.value chars) (chars + 1) ⟨0, 0, u8, false⟩ = some s ∧
      chars * MAX_BYTES_PER_UTF8_CP ≤ u8.length ∧ s.i ≤ chars * MAX_BYTES_PER_UTF8_CP ∧
        c.convert [] = .text (s.u8.take s.i) := by
  cases hblock : c.block chars with
  | none =>
    refine absurd ⟨by omega, by omega, Or.inl ?_⟩ hnot
    rw [hlen, Int.toNat_natCast, hblock]
  | some u8 =>
    obtain ⟨s, hrun, hi, hused⟩ := @run_encodeBody_used (c.value ++ []) u8 0 0 chars (chars + 1)
      false (by omega)
    have hconvert := convert_of_block_some c [] hlen hpos hlt hblock hrun
    have hmissing : (s.utf8mb4Used && !isMinimumVersion c.serverVersion ⟨5, 5, 3⟩) = false := by
      by_contra hboth
      rw [Bool.not_eq_false, Bool.and_eq_true, Bool.not_eq_true', hused] at hboth
      obtain ⟨hmet, hold⟩ := hboth
      refine hnot ⟨by omega, by omega, Or.inr ⟨hold, ?_⟩⟩
      rw [hlen, Int.toNat_natCast]
      rw [List.append_nil] at hmet
      exact hmet.resolve_left (by simp)
    rw [hmissing] at hconvert
    rw [List.append_nil] at hrun
    rw [Nat.zero_add, Nat.sub_zero] at hi
    exact ⟨u8, s, hrun, WideParam.block_length hblock, hi, hconvert⟩

/-- Nothing is written for a length that is not positive. -/
theorem sqlwcharAsUtf8Ext_of_nonpos (malloc : ℕ → Option (List UInt8)) (str : List SQLWCHAR)
    (buff : Option (List UInt8)) (buffMax : ℕ) {len : ℤ} (h : len ≤ 0) :
    sqlwcharAsUtf8Ext malloc (some str) (some len) buff buffMax used = some ⟨buff, 0, used⟩ := by
  rw [sqlwcharAsUtf8Ext]
  exact if_pos h

/-- A length that is not positive gives an empty text. -/
theorem convert_of_nonpos (c : WideParam) (behind : List SQLWCHAR) (h : intLen c.value ≤ 0) :
    c.convert behind = .text [] := by
  have hproduct : ∀ len : ℤ, len ≤ 0 → ¬ (2 : ℤ) ^ 31 ≤ len * MAX_BYTES_PER_UTF8_CP := by
    intro len hlen
    simp only [MAX_BYTES_PER_UTF8_CP]
    omega
  rw [WideParam.convert, sqlwcharAsUtf8Ext_of_nonpos _ _ _ _ h, if_neg (hproduct _ h)]
  rfl

/-- The number of units as an `SQLINTEGER` is their number, or the value is much longer. -/
theorem intLen_cases {value : List SQLWCHAR} {chars : ℕ} (h : intLen value = chars) :
    value.length = chars ∨ 2 ^ 32 ≤ value.length := by
  unfold intLen at h
  simp only [Int.bmod] at h
  omega

theorem intLen_of_lt {value : List SQLWCHAR} (h : value.length < 2 ^ 29) :
    intLen value = value.length := by
  unfold intLen
  simp only [Int.bmod]
  omega

/-- The text of a value whose units all fit is what the encoder makes of the characters at the
front. -/
theorem text_eq_encoded {value behind : List SQLWCHAR} {s : EncodeState}
    (hroom : value.length * MAX_BYTES_PER_UTF8_CP ≤ u8.length)
    (hbehind : unpaired value = [] ∨ behind = [])
    (hrun : run (encodeBody (value ++ behind) value.length) (value.length + 1) ⟨0, 0, u8, false⟩ =
      some s) : s.u8.take s.i = encoded value := by
  obtain ⟨s', hrun', htext⟩ := @run_encodeBody_text (value ++ behind) u8 0 0 value.length
    (value.length + 1) false value behind rfl (Nat.zero_add _) hbehind (by omega) (Nat.lt_succ_self _)
  obtain rfl := Option.some.inj (hrun.symm.trans hrun')
  exact htext

/-- A value of which nothing is lost has an error due, or the encoder reads it as it is. -/
theorem wellRead_of_losesNothing {c : WideParam} (h : c.LosesNothing own) (hnot : ¬ c.Reports) :
    c.value.length < 2 ^ 29 ∧ WellRead own c.value := by
  by_cases hnonpos : intLen c.value ≤ 0
  · have htext := convert_of_nonpos c [] hnonpos
    obtain ⟨_, _, herror⟩ | hnull | ⟨text, htext', haccounts⟩ := h []
    · rw [htext] at herror
      cases herror
    · rw [htext] at hnull
      cases hnull
    · rw [htext] at htext'
      cases htext'
      have hempty : c.value = [] :=
        List.eq_nil_of_length_eq_zero (Nat.eq_zero_of_le_zero haccounts.length_le)
      rw [hempty]
      exact ⟨by decide, (wellRead_of_zero rfl).mpr rfl⟩
  obtain ⟨chars, hlen⟩ : ∃ chars : ℕ, intLen c.value = chars := ⟨(intLen c.value).toNat, by omega⟩
  by_cases hlt : chars < 2 ^ 29
  · obtain ⟨u8, s, hrun, hroom, hi, htext⟩ := text_of_not_reports hlen (by omega) hlt hnot
    obtain ⟨_, _, herror⟩ | hnull | ⟨text, htext', haccounts⟩ := h []
    · rw [htext] at herror
      cases herror
    · rw [htext] at hnull
      cases hnull
    · rw [htext] at htext'
      cases htext'
      rcases intLen_cases hlen with rfl | hlong
      · have htext := @text_eq_encoded u8 c.value [] s hroom (Or.inr rfl) (by rwa [List.append_nil])
        rw [htext] at haccounts
        exact ⟨hlt, (accounts_encoded_iff _).mp haccounts⟩
      · have hle := haccounts.length_le
        rw [List.length_take] at hle
        simp only [MAX_BYTES_PER_UTF8_CP] at hi
        omega
  · have hundefined : c.convert [] = .undefined := by
      rw [WideParam.convert, hlen]
      apply if_pos
      simp only [MAX_BYTES_PER_UTF8_CP]
      omega
    obtain ⟨_, _, herror⟩ | hnull | ⟨text, htext', -⟩ := h []
    · rw [hundefined] at herror
      cases herror
    · rw [hundefined] at hnull
      cases hnull
    · rw [hundefined] at htext'
      cases htext'

/-- No unit of a wide parameter is lost silently exactly if an error is due, or the value has
fewer than `2 ^ 29` units and the encoder reads each of them as it is. -/
theorem convert_losesNothing_iff (own : Bool) (c : WideParam) :
    c.LosesNothing own ↔ c.Reports ∨ c.value.length < 2 ^ 29 ∧ WellRead own c.value := by
  constructor
  · intro h
    by_cases hreports : c.Reports
    · exact Or.inl hreports
    · exact Or.inr (wellRead_of_losesNothing h hreports)
  rintro (hreports | ⟨hlt, hwell⟩)
  · exact losesNothing_of_reports hreports
  intro behind
  have hlen := intLen_of_lt hlt
  have haccounts := (accounts_encoded_iff _).mpr hwell
  by_cases hempty : c.value = []
  · refine Or.inr (Or.inr ⟨[], convert_of_nonpos c behind (by rw [hlen, hempty]; rfl), ?_⟩)
    rw [hempty]
    exact .nil
  have hpos := List.length_pos_iff.mpr hempty
  cases hblock : c.block c.value.length with
  | none => exact Or.inr (Or.inl (convert_of_block_none c behind hlen hpos hlt hblock))
  | some u8 =>
    obtain ⟨s, hrun, -, -⟩ := @run_encodeBody_used (c.value ++ behind) u8 0 0 c.value.length
      (c.value.length + 1) false (Nat.lt_succ_self _)
    have hconvert := convert_of_block_some c behind hlen hpos hlt hblock hrun
    by_cases herror : (s.utf8mb4Used && !isMinimumVersion c.serverVersion ⟨5, 5, 3⟩) = true
    · rw [if_pos herror] at hconvert
      exact Or.inl ⟨_, _, hconvert⟩
    · rw [if_neg herror,
        text_eq_encoded (WideParam.block_length hblock) (Or.inl hwell.1) hrun] at hconvert
      exact Or.inr (Or.inr ⟨_, hconvert, haccounts⟩)

/-- Behind a first surrogate that stands alone everything is lost, and nothing is reported. -/
theorem convert_cutsAtSurrogate : ∃ c : WideParam, c.value = [0x61, 0xD800, 0x62] ∧
    c.convert [] = .text [0x61] ∧ ∀ own, ¬ c.LosesNothing own := by
  obtain ⟨allocator, -⟩ : ∃ allocator : Allocator, allocator.bytes 0 = none :=
    ⟨⟨fun _ => none, fun _ => none, by simp, by simp⟩, rfl⟩
  let c : WideParam := ⟨[0x61, 0xD800, 0x62], allocator, List.replicate 12 0, 12, by simp, ⟨8, 0, 0⟩⟩
  have hrun : (run (encodeBody ([0x61, 0xD800, 0x62] ++ []) 3) 4 ⟨0, 0, List.replicate 12 0, false⟩).map
      (fun s => (s.utf8mb4Used, s.u8.take s.i)) = some (false, [0x61]) := by decide +kernel
  obtain ⟨s, hs, hpair⟩ := Option.map_eq_some_iff.mp hrun
  obtain ⟨hused, hwritten⟩ := Prod.ext_iff.mp hpair
  have htext : c.convert [] = .text [0x61] := by
    have hlen : intLen c.value = (3 : ℕ) := @intLen_of_lt [0x61, 0xD800, 0x62] (by decide)
    have hblock : c.block 3 = some (List.replicate 12 0) :=
      if_neg (show ¬ 12 < 3 * MAX_BYTES_PER_UTF8_CP by decide)
    rw [convert_of_block_some c [] hlen (by decide) (by decide) hblock hs]
    dsimp only at hused hwritten
    rw [hused, hwritten]
    rfl
  refine ⟨c, rfl, htext, fun own h => ?_⟩
  obtain ⟨_, _, herror⟩ | hnull | ⟨text, htext', haccounts⟩ := h []
  · rw [htext] at herror
    cases herror
  · rw [htext] at hnull
    cases hnull
  · rw [htext] at htext'
    cases htext'
    exact absurd haccounts.length_le (by simp [c])

/-- For a value of fewer than `2 ^ 29` units this is the conversion of a bound parameter. -/
theorem convertCType2str_wide (env : PathEnv) (sspsUsed : Bool) (c : WideParam)
    (behind : List SQLWCHAR) (hmalloc : c.allocator.bytes = env.malloc) (hbuff : c.buff = env.stack)
    (hmax : c.buffMax = sizeofBuff)
    (hserver : isMinimumVersion c.serverVersion ⟨5, 5, 3⟩ = env.utf8mb4Server)
    (hlt : c.value.length < 2 ^ 29) :
    (convertCType2str env sspsUsed (.SQL_C_WCHAR (c.value ++ behind))
      (2 * c.value.length)).map ParamText.text = (c.convert behind).toExcept := by
  have hlen := intLen_of_lt hlt
  have hproduct : ¬ (2 : ℤ) ^ 31 ≤ (c.value.length : ℤ) * MAX_BYTES_PER_UTF8_CP := by
    simp only [MAX_BYTES_PER_UTF8_CP]
    omega
  have hrange : ¬ (2 * (c.value.length : ℤ) < 0 ∨
      2 * ((c.value ++ behind).length : ℤ) < 2 * (c.value.length : ℤ)) := by
    rw [List.length_append]
    omega
  have hhalf : 2 * (c.value.length : ℤ) / 2 = c.value.length := by omega
  rw [WideParam.convert, hlen, if_neg hproduct, hmalloc, hbuff, hmax, hserver]
  unfold convertCType2str
  dsimp only
  rw [if_neg hrange, hhalf]
  cases sqlwcharAsUtf8Ext env.malloc (some (c.value ++ behind)) (some c.value.length)
    (some env.stack) sizeofBuff false with
  | none => simp [Except.map, WideOutcome.toExcept]
  | some res =>
    dsimp only
    by_cases herror : (res.utf8mb4Used && !env.utf8mb4Server) = true
    · rw [if_pos herror, if_pos herror]
      rfl
    · rw [if_neg herror, if_neg herror]
      cases res.u8 with
      | none => rfl
      | some u8 => rfl

end MatrixOdbc.Driver
