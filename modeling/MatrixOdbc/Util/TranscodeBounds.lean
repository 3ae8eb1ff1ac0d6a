import MatrixOdbc.Util.CharsetBounds

/-!
# The bounds of the transcoders

`sqlwchar_as_utf8_ext` with every access checked. `utf16toutf32` looks at the unit behind
a first surrogate, also behind the last unit of the value, and the loop ends at a first surrogate
that no second one follows. The lengths are of type `SQLINTEGER`, and what is computed with them
has to be one. The last theorem puts the three functions together.
-/

namespace MatrixOdbc.Util

open WhileLoop Splitting

variable {str units : List SQLWCHAR} {u8 : List UInt8} {p i fuel : ℕ} {used : Bool}

/-- The unit is the first of two surrogates. -/
def IsHigh (u : SQLWCHAR) : Prop := 0xd800 ≤ u.toNat ∧ u.toNat ≤ 0xdbff

instance : DecidablePred IsHigh := fun _ => inferInstanceAs (Decidable (_ ∧ _))

/-- The unit is the second of two surrogates. -/
def IsLow (u : SQLWCHAR) : Prop := 0xdc00 ≤ u.toNat ∧ u.toNat ≤ 0xdfff

instance : DecidablePred IsLow := fun _ => inferInstanceAs (Decidable (_ ∧ _))

/-- How many units `utf16toutf32` reads. -/
def unitsRead (i : List SQLWCHAR) : ℕ := if IsHigh (charAt i 0) then 2 else 1

/-- `utf16toutf32` on a text that ends with the last unit of `i`: nothing if it reads on. -/
def utf16toutf32Within (i : List SQLWCHAR) : Option (ℕ × ℕ) :=
  if unitsRead i ≤ i.length then some (utf16toutf32 i) else none

/-- The number of units of the character at the front: two surrogates, or one unit that is not
the first of two. -/
def characterLength : List SQLWCHAR → ℕ
  | [] => 0
  | u :: str => if IsHigh u then if IsLow (charAt str 0) then 2 else 0 else 1

theorem characterLength_fits : Fits characterLength := by
  intro str
  cases str with
  | nil => exact Nat.zero_le _
  | cons u str =>
    rw [characterLength]
    split_ifs with hhigh hlow
    · cases str with
      | nil => simp [IsLow] at hlow
      | cons v str => simp
    · exact Nat.zero_le _
    · exact Nat.succ_le_succ (Nat.zero_le _)

/-- What is consumed is the character at the front. -/
theorem utf16toutf32_consumed (u : SQLWCHAR) (str : List SQLWCHAR) :
    (utf16toutf32 (u :: str)).1 = characterLength (u :: str) := by
  rw [utf16toutf32, characterLength, charAt_cons_zero, charAt_cons_succ]
  by_cases hhigh : IsHigh u
  · have hrange : 0xd800 ≤ u.toNat ∧ u.toNat ≤ 0xdbff := hhigh
    rw [if_pos hrange, if_pos hhigh]
    by_cases hlow : IsLow (charAt str 0)
    · have hin : ¬ ((charAt str 0).toNat < 0xdc00 ∨ 0xdfff < (charAt str 0).toNat) := by
        unfold IsLow at hlow
        omega
      rw [if_pos hlow, if_neg hin]
    · have hout : (charAt str 0).toNat < 0xdc00 ∨ 0xdfff < (charAt str 0).toNat := by
        unfold IsLow at hlow
        omega
      rw [if_neg hlow, if_pos hout]
  · have hrange : ¬ (0xd800 ≤ u.toNat ∧ u.toNat ≤ 0xdbff) := hhigh
    rw [if_neg hrange, if_neg hhigh]

/-- A character is read without a look behind the text. -/
theorem utf16toutf32Within_of_character (h : 0 < characterLength str) :
    utf16toutf32Within str = some (characterLength str, (utf16toutf32 str).2) := by
  have hfits := characterLength_fits str
  cases str with
  | nil => exact absurd h (Nat.lt_irrefl 0)
  | cons u str =>
    have hread : unitsRead (u :: str) ≤ (u :: str).length := by
      rw [characterLength] at h hfits
      rw [unitsRead, charAt_cons_zero]
      by_cases hhigh : IsHigh u
      · rw [if_pos hhigh] at h hfits ⊢
        split_ifs at h hfits
        · exact hfits
        · omega
      · rw [if_neg hhigh] at hfits ⊢
        exact hfits
    rw [utf16toutf32Within, if_pos hread, ← utf16toutf32_consumed]

/-- Where no character is, nothing is consumed, or the function reads behind the text. -/
theorem utf16toutf32Within_of_rest (hne : str ≠ []) (h : characterLength str = 0) :
    utf16toutf32Within str = if str.length = 1 then none else some (0, (utf16toutf32 str).2) := by
  cases str with
  | nil => exact absurd rfl hne
  | cons u str =>
    have hhigh : IsHigh u := by
      by_contra hnot
      rw [characterLength, if_neg hnot] at h
      cases h
    rw [utf16toutf32Within, unitsRead, charAt_cons_zero, if_pos hhigh]
    by_cases hone : (u :: str).length = 1
    · rw [if_neg (by omega), if_pos hone]
    · have htwo : 2 ≤ (u :: str).length := by
        rw [List.length_cons] at hone ⊢
        omega
      rw [if_pos htwo, if_neg hone, ← h, ← utf16toutf32_consumed]

/-- The character that is read depends on its units only. -/
theorem utf16toutf32_take (h : 0 < characterLength str) :
    utf16toutf32 (str.take (characterLength str)) = utf16toutf32 str := by
  cases str with
  | nil => exact absurd h (Nat.lt_irrefl 0)
  | cons u str =>
    rw [characterLength] at h ⊢
    split_ifs at h ⊢ with hhigh hlow
    · cases str with
      | nil => simp [IsLow] at hlow
      | cons v str => rfl
    · omega
    · have hnot : ¬ (0xd800 ≤ u.toNat ∧ u.toNat ≤ 0xdbff) := hhigh
      rw [List.take_succ_cons, utf16toutf32, utf16toutf32, charAt_cons_zero, charAt_cons_zero,
        if_neg hnot, if_neg hnot]

/-- The bytes that a character becomes. -/
def bytesOf (character : List SQLWCHAR) : List UInt8 := utf32toutf8 (utf16toutf32 character).2

/-- The bytes that the characters at the front become. -/
def encoded (str : List SQLWCHAR) : List UInt8 := (split characterLength str).1.flatMap bytesOf

/-- What is left behind the characters at the front: nothing, or a text that begins with a
first surrogate without its second one. -/
def unpaired (str : List SQLWCHAR) : List SQLWCHAR := (split characterLength str).2

theorem encoded_of_zero (h : characterLength str = 0) : encoded str = [] := by
  rw [encoded, split_of_zero h]
  rfl

theorem encoded_of_pos (h : 0 < characterLength str) :
    encoded str = utf32toutf8 (utf16toutf32 str).2 ++
      encoded (str.drop (characterLength str)) := by
  rw [encoded, split_of_pos characterLength_fits h, List.flatMap_cons, bytesOf, utf16toutf32_take h]
  rfl

theorem unpaired_of_zero (h : characterLength str = 0) : unpaired str = str := by
  rw [unpaired, split_of_zero h]

theorem unpaired_of_pos (h : 0 < characterLength str) :
    unpaired str = unpaired (str.drop (characterLength str)) := by
  rw [unpaired, split_of_pos characterLength_fits h]
  rfl

/-- `encodeBody` on a text that ends with its last unit, with checked accesses. The sum of
the lengths has to be an `SQLINTEGER`. -/
def encodeWithin (str : List SQLWCHAR) (s : EncodeState) : Step EncodeState (Option EncodeState) :=
  if str.length ≤ s.str then .done (some s)
  else
    match utf16toutf32Within (str.drop s.str) with
    | none => .done none
    | some (consumed, u32) =>
      if consumed = 0 then .done (some s)
      else
        let c := utf32toutf8 u32
        match Buffer.storeWithin s.u8 s.i c with
        | none => .done none
        | some u8 =>
          if 2 ^ 31 ≤ s.i + c.length then .done none
          else .next ⟨s.str + consumed, s.i + c.length, u8, s.utf8mb4Used || c.length == 4⟩

/-- A call of `sqlwchar_as_utf8_ext` with a length. The length is an `SQLINTEGER`, and the buffer,
if there is one, has the size that is given. -/
structure SqlwcharCall where
  mem : Allocator
  str : Option (List SQLWCHAR)
  buff : Option (List UInt8)
  buffMax : ℕ
  utf8mb4Used : Bool
  length_lt : ∀ s, str = some s → s.length < 2 ^ 31
  buffMax_le : ∀ b, buff = some b → buffMax ≤ b.length

/-- The block that `sqlwchar_as_utf8_ext` chooses for a value that is not empty. -/
def SqlwcharCall.block (c : SqlwcharCall) (str : List SQLWCHAR) : Option (List UInt8) :=
  if c.buff.isNone ∨ c.buffMax < str.length * MAX_BYTES_PER_UTF8_CP then
    c.mem.bytes (MAX_BYTES_PER_UTF8_CP * str.length + 1)
  else c.buff

/-- `sqlwchar_as_utf8_ext` for a value with its length, with checked accesses: nothing if an
access was out of bounds. -/
def sqlwcharAsUtf8ExtWithin (c : SqlwcharCall) : Option EncodeResult :=
  match c.str with
  | none => some ⟨c.buff, 0, c.utf8mb4Used⟩
  | some str =>
    if str = [] then some ⟨c.buff, 0, c.utf8mb4Used⟩
    -- the product is computed in an `SQLINTEGER` when there is a buffer
    else if c.buff.isSome ∧ 2 ^ 31 ≤ str.length * MAX_BYTES_PER_UTF8_CP then none
    else
      match c.block str with
      | none => some ⟨none, -1, c.utf8mb4Used⟩
      | some u8 =>
        (run (encodeWithin str) (str.length + 1) ⟨0, 0, u8, c.utf8mb4Used⟩).join.map fun s =>
          ⟨some s.u8, s.i, s.utf8mb4Used⟩

theorem encodeWithin_done {s : EncodeState} (h : str.length ≤ s.str) :
    encodeWithin str s = .done (some s) := if_pos h

/-- The loop keeps its bounds exactly if the value does not end with its first unpaired surrogate
and the length of the text is an `SQLINTEGER`. -/
theorem run_encodeWithin_isSome_iff (xs : List SQLWCHAR) (hdrop : str.drop p = xs)
    (hroom : i + xs.length * MAX_BYTES_PER_UTF8_CP ≤ u8.length) (hi : i < 2 ^ 31)
    (hfuel : xs.length < fuel) :
    (run (encodeWithin str) fuel ⟨p, i, u8, used⟩).join.isSome ↔
      (unpaired xs).length ≠ 1 ∧ i + (encoded xs).length < 2 ^ 31 := by
  induction xs using induction_on characterLength_fits generalizing p i u8 used fuel with
  | rest xs h =>
    obtain ⟨fuel, rfl⟩ : ∃ n, fuel = n + 1 := ⟨fuel - 1, by omega⟩
    rw [encoded_of_zero h, unpaired_of_zero h, List.length_nil, Nat.add_zero i, and_iff_left hi]
    by_cases hp : str.length ≤ p
    · rw [run_succ_done (encodeWithin_done hp), ← hdrop, List.drop_eq_nil_of_le hp]
      simp
    · have hne : str.drop p ≠ [] := by
        rw [ne_eq, List.drop_eq_nil_iff]
        omega
      have hstep : encodeWithin str ⟨p, i, u8, used⟩ =
          .done (if xs.length = 1 then none else some ⟨p, i, u8, used⟩) := by
        rw [encodeWithin, if_neg hp, utf16toutf32Within_of_rest hne (by rwa [hdrop]), hdrop]
        by_cases hone : xs.length = 1
        · rw [if_pos hone, if_pos hone]
        · rw [if_neg hone, if_neg hone]
          exact if_pos rfl
      rw [run_succ_done hstep]
      by_cases hone : xs.length = 1
      · simp [hone]
      · simp [hone]
  | piece xs h ih =>
    obtain ⟨fuel, rfl⟩ : ∃ n, fuel = n + 1 := ⟨fuel - 1, by omega⟩
    have hfits := characterLength_fits xs
    have hp : ¬ str.length ≤ p := by
      have hlen := congrArg List.length hdrop
      rw [List.length_drop] at hlen
      omega
    have hsize := length_utf32toutf8_le (utf16toutf32 xs).2
    have hless : (xs.drop (characterLength xs)).length + characterLength xs = xs.length := by
      rw [List.length_drop]
      omega
    simp only [MAX_BYTES_PER_UTF8_CP] at hroom ih
    have hstore : i + (utf32toutf8 (utf16toutf32 xs).2).length ≤ u8.length := by omega
    have hstep : encodeWithin str ⟨p, i, u8, used⟩ =
        if 2 ^ 31 ≤ i + (utf32toutf8 (utf16toutf32 xs).2).length then .done none
        else .next ⟨p + characterLength xs, i + (utf32toutf8 (utf16toutf32 xs).2).length,
          Buffer.store u8 i (utf32toutf8 (utf16toutf32 xs).2),
          used || (utf32toutf8 (utf16toutf32 xs).2).length == 4⟩ := by
      rw [encodeWithin, if_neg hp, hdrop, utf16toutf32Within_of_character h]
      simp only [if_neg (Nat.ne_of_gt h), Buffer.storeWithin_of_le hstore]
    rw [encoded_of_pos h, unpaired_of_pos h, List.length_append, ← Nat.add_assoc]
    by_cases hlarge : 2 ^ 31 ≤ i + (utf32toutf8 (utf16toutf32 xs).2).length
    · rw [if_pos hlarge] at hstep
      rw [run_succ_done hstep]
      refine iff_of_false (by simp) fun hboth => ?_
      have := hboth.2
      omega
    · rw [if_neg hlarge] at hstep
      have hlater : str.drop (p + characterLength xs) = xs.drop (characterLength xs) := by
        rw [← List.drop_drop, hdrop]
      have hroom' : i + (utf32toutf8 (utf16toutf32 xs).2).length +
          (xs.drop (characterLength xs)).length * 4 ≤
            (Buffer.store u8 i (utf32toutf8 (utf16toutf32 xs).2)).length := by
        rw [Buffer.length_store hstore]
        omega
      rw [run_succ_next hstep]
      exact ih hlater hroom' (Nat.lt_of_not_le hlarge) (by omega)

/-- The product is an `SQLINTEGER` where it is computed as one. If there is a block, the value
does not end with its first unpaired surrogate and becomes a text whose length is
an `SQLINTEGER`. -/
def SqlwcharCall.Suffices (c : SqlwcharCall) : Prop := ∀ str, c.str = some str → str ≠ [] →
  (c.buff ≠ none → str.length < 2 ^ 29) ∧
    (c.block str ≠ none → (unpaired str).length ≠ 1 ∧ (encoded str).length < 2 ^ 31)

/-- The block has room for four bytes a unit. -/
theorem SqlwcharCall.block_length (c : SqlwcharCall) {str : List SQLWCHAR} {u8 : List UInt8}
    (h : c.block str = some u8) : str.length * MAX_BYTES_PER_UTF8_CP ≤ u8.length := by
  rw [block] at h
  split_ifs at h with hmalloc
  · rw [c.mem.bytes_length _ _ h]
    simp only [MAX_BYTES_PER_UTF8_CP]
    omega
  · have := c.buffMax_le u8 h
    omega

/-- `sqlwchar_as_utf8_ext` keeps its bounds exactly if the call suffices. -/
theorem sqlwcharAsUtf8ExtWithin_isSome_iff (c : SqlwcharCall) :
    (sqlwcharAsUtf8ExtWithin c).isSome ↔ c.Suffices := by
  unfold sqlwcharAsUtf8ExtWithin SqlwcharCall.Suffices
  cases hstr : c.str with
  | none => simp
  | some str =>
    simp only [Option.some.injEq, forall_eq']
    by_cases hnil : str = []
    · simp [hnil]
    have hproduct : c.buff.isSome ∧ 2 ^ 31 ≤ str.length * MAX_BYTES_PER_UTF8_CP ↔
        ¬ (c.buff ≠ none → str.length < 2 ^ 29) := by
      rw [Option.isSome_iff_ne_none, Classical.not_imp, MAX_BYTES_PER_UTF8_CP]
      refine and_congr_right fun _ => ?_
      omega
    rw [if_neg hnil, forall_prop_of_true hnil]
    by_cases hoverflow : c.buff ≠ none → str.length < 2 ^ 29
    · rw [if_neg (mt hproduct.mp (not_not.mpr hoverflow)), and_iff_right hoverflow]
      cases hblock : c.block str with
      | none => simp
      | some u8 =>
        have hroom := c.block_length hblock
        have hrun := @run_encodeWithin_isSome_iff str u8 0 0 (str.length + 1) c.utf8mb4Used str rfl
          (by omega) (by omega) (by omega)
        rw [Nat.zero_add] at hrun
        simp only [Option.isSome_map, hrun]
        simp
    · rw [if_pos (hproduct.mpr hoverflow)]
      exact iff_of_false (by simp) fun h => hoverflow h.1

/-- A checked reading is the unchecked one, whatever is behind the text. -/
theorem utf16toutf32_of_within {behind : List SQLWCHAR} {r : ℕ × ℕ}
    (h : utf16toutf32Within str = some r) : utf16toutf32 (str ++ behind) = r := by
  rw [utf16toutf32Within] at h
  split_ifs at h with hread
  rw [← Option.some.inj h]
  cases str with
  | nil =>
    rw [unitsRead, charAt_nil, if_neg (by decide)] at hread
    exact absurd hread (by simp)
  | cons u str =>
    rw [unitsRead, charAt_cons_zero] at hread
    rw [List.cons_append, utf16toutf32, utf16toutf32, charAt_cons_zero, charAt_cons_zero,
      charAt_cons_succ, charAt_cons_succ]
    by_cases hhigh : IsHigh u
    · rw [if_pos hhigh, List.length_cons] at hread
      obtain ⟨v, str, rfl⟩ := List.exists_cons_of_length_pos (Nat.le_of_succ_le_succ hread)
      rfl
    · have hrange : ¬ (0xd800 ≤ u.toNat ∧ u.toNat ≤ 0xdbff) := hhigh
      rw [if_neg hrange, if_neg hrange]

/-- The three transcoders keep their bounds exactly if the calls suffice: no text ends inside
a sequence or with its first unpaired surrogate, there is a place behind the units for
the terminator and a counter for an error, an empty text gets its block, and every length is
an `SQLINTEGER`. -/
theorem transcoding_within_iff (target : Target) (bytes : List UInt8) (c : SqlcharCall)
    (w : SqlwcharCall) :
    ((utf8AsSqlwcharWithin target bytes).isSome ↔ target.Suffices bytes) ∧
      ((sqlcharAsSqlwcharWithin c.mem c.cs c.str c.errors).isSome ↔ c.Suffices) ∧
        ((sqlwcharAsUtf8ExtWithin w).isSome ↔ w.Suffices) :=
  ⟨utf8AsSqlwcharWithin_isSome_iff target bytes, sqlcharAsSqlwcharWithin_isSome_iff c,
    sqlwcharAsUtf8ExtWithin_isSome_iff w⟩

/-- A buffer that the text fills has no place for the terminator. The first byte of two at the end
of a text and a first surrogate at the end of a value make the decoders read on. -/
theorem transcoding_failingInputs :
    (utf8AsSqlwcharWithin (.buffer [0]) [0x61]).isSome = false ∧
      (utf8AsSqlwcharWithin (.buffer [0, 0, 0]) [0x61, 0xC3]).isSome = false ∧
        (∃ c : SqlcharCall, c.cs.number = 45 ∧ c.str = some [0x61, 0xC3] ∧
          (sqlcharAsSqlwcharWithin c.mem c.cs c.str c.errors).isSome = false) ∧
          ∃ c : SqlwcharCall, c.str = some [0x61, 0xD800] ∧
            (sqlwcharAsUtf8ExtWithin c).isSome = false := by
  obtain ⟨mem, hbytes, hunits⟩ : ∃ mem : Allocator, (∀ n, mem.bytes n = some (List.replicate n 0)) ∧
      ∀ n, mem.units n = some (List.replicate (n / 2) 0) :=
    ⟨⟨fun n => some (List.replicate n 0), fun n => some (List.replicate (n / 2) 0),
      by simp, by simp⟩, by simp, by simp⟩
  refine ⟨by decide, by decide, ?_, ?_⟩
  · let cs : CharsetInfo := ⟨45, 1, fun _ => (MysqlStrings.MY_CS_TOOSMALL, 0), Nat.one_pos,
      fun _ h => absurd h (Int.lt_irrefl _), Int.le_refl _⟩
    let c : SqlcharCall := ⟨mem, cs, some [0x61, 0xC3], some 0, by simp⟩
    refine ⟨c, rfl, rfl, ?_⟩
    rw [← Bool.not_eq_true, sqlcharAsSqlwcharWithin_isSome_iff c]
    intro h
    have hsuffices := h [0x61, 0xC3] rfl
    rw [if_neg (by decide), if_pos (show isUtf8Charset 45 = true by decide), hunits] at hsuffices
    have hsplit : split sequenceLength [0x61, 0xC3] = ([[0x61]], [0xC3]) := by decide +kernel
    rcases hsuffices.2 with hnone | hdecodable
    · cases hnone
    · rw [Decodable, EndsInside, hsplit] at hdecodable
      simp [Truncated, tailLength] at hdecodable
  · let c : SqlwcharCall := ⟨mem, some [0x61, 0xD800], none, 0, false, by simp, by simp⟩
    refine ⟨c, rfl, ?_⟩
    rw [← Bool.not_eq_true, sqlwcharAsUtf8ExtWithin_isSome_iff c]
    intro h
    have hblock : c.block [0x61, 0xD800] ≠ none := by
      rw [SqlwcharCall.block, if_pos (Or.inl (show c.buff.isNone = true by rfl))]
      change mem.bytes _ ≠ none
      simp [hbytes]
    have hunpaired : unpaired [0x61, 0xD800] = [0xD800] := by decide
    have hlength := ((h [0x61, 0xD800] rfl (by simp)).2 hblock).1
    rw [hunpaired] at hlength
    exact hlength rfl

end MatrixOdbc.Util
