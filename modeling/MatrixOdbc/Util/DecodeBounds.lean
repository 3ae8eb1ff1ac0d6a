import MatrixOdbc.Foundations.Splitting
import MatrixOdbc.Util.WellFormed

/-!
# The bounds of the decoder

`utf8_as_sqlwchar` with every access checked. `utf8toutf32` has no length argument and
goes on as long as it meets continuation bytes, and the terminator is written behind the
loop. What the function accesses depends on the sequences at the front of the text, on
the units that they become and on how the text ends.
-/

namespace MatrixOdbc.Util

open WhileLoop Splitting

variable {bytes i rest : List UInt8} {lead : UInt8} {out : List SQLWCHAR} {p pos fuel outEnd : ℕ}

/-- How many bytes the loop of `utf8toutf32` over `x` bytes reads. -/
def bytesReadTail : ℕ → List UInt8 → ℕ
  | 0, _ => 0
  | x + 1, i => if (i.headD 0).toNat >>> 6 ≠ 2 then 1 else bytesReadTail x i.tail + 1

/-- How many bytes `utf8toutf32` reads. -/
def bytesRead (i : List UInt8) : ℕ := 1 + bytesReadTail (tailLength (i.headD 0)) i.tail

/-- `utf8toutf32` on a text that ends with the last byte of `i`: nothing if it reads on. -/
def utf8toutf32Within (i : List UInt8) : Option (ℕ × ℕ) :=
  if bytesRead i ≤ i.length then some (utf8toutf32 i) else none

/-- The number of bytes of the sequence at the front: a first byte and all the continuation
bytes it asks for. -/
def sequenceLength : List UInt8 → ℕ
  | [] => 0
  | lead :: i => if Continued (tailLength lead) i then tailLength lead + 1 else 0

/-- The text ends inside its first sequence. -/
def Truncated : List UInt8 → Prop
  | [] => False
  | lead :: i => i.length < tailLength lead ∧ ∀ b ∈ i, 0x80 ≤ b.toNat ∧ b.toNat < 0xc0

instance : DecidablePred Truncated
  | [] => inferInstanceAs (Decidable False)
  | _ :: _ => inferInstanceAs (Decidable (_ ∧ _))

theorem sequenceLength_fits : Fits sequenceLength := by
  intro xs
  cases xs with
  | nil => exact Nat.zero_le _
  | cons lead i =>
    rw [sequenceLength]
    split_ifs with h
    · rw [List.length_cons]
      exact Nat.succ_le_succ h.1
    · exact Nat.zero_le _

/-- A byte with the mark of a continuation byte. -/
theorem shiftRight_six_iff (b : UInt8) : b.toNat >>> 6 = 2 ↔ 0x80 ≤ b.toNat ∧ b.toNat < 0xc0 := by
  rw [Nat.shiftRight_eq_div_pow]
  omega

/-- The loop reads behind the text if there are continuation bytes only, and too few. -/
theorem bytesReadTail_le_iff {x : ℕ} :
    bytesReadTail x i ≤ i.length ↔
      ¬ (i.length < x ∧ ∀ b ∈ i, 0x80 ≤ b.toNat ∧ b.toNat < 0xc0) := by
  induction x generalizing i with
  | zero => simp [bytesReadTail]
  | succ x ih =>
    cases i with
    | nil => simp [bytesReadTail]
    | cons b i =>
      rw [bytesReadTail, List.headD_cons, List.tail_cons]
      by_cases hb : b.toNat >>> 6 = 2
      · rw [if_neg (not_not.mpr hb), List.length_cons, Nat.add_le_add_iff_right, ih]
        simp [(shiftRight_six_iff b).mp hb]
      · rw [if_pos hb]
        simp [mt (shiftRight_six_iff b).mpr hb]

theorem bytesRead_le_iff : bytesRead (lead :: i) ≤ (lead :: i).length ↔ ¬ Truncated (lead :: i) := by
  rw [bytesRead, List.headD_cons, List.tail_cons, List.length_cons, Nat.add_comm,
    Nat.add_le_add_iff_right, bytesReadTail_le_iff, Truncated]

/-- What is consumed is the sequence at the front. -/
theorem utf8toutf32_consumed : (utf8toutf32 (lead :: i)).1 = sequenceLength (lead :: i) := by
  have hvalid : ∀ n u, (if (utf8toutf32Tail n i u).1 then n + 1 else 0) =
      if Continued n i then n + 1 else 0 := by
    intro n u
    simp only [utf8toutf32Tail_iff]
  rw [sequenceLength]
  unfold tailLength
  by_cases h₁ : lead.toNat < 0x80
  · rw [utf8toutf32, List.headD_cons, if_pos h₁, if_pos h₁]
    simp [Continued]
  rw [if_neg h₁]
  by_cases h₂ : lead.toNat < 0xe0
  · rw [utf8toutf32, List.headD_cons, if_neg h₁, if_pos h₂, if_pos h₂]
    exact hvalid 1 _
  rw [if_neg h₂]
  by_cases h₃ : lead.toNat < 0xf0
  · rw [utf8toutf32, List.headD_cons, if_neg h₁, if_neg h₂, if_pos h₃, if_pos h₃]
    exact hvalid 2 _
  · rw [utf8toutf32, List.headD_cons, if_neg h₁, if_neg h₂, if_neg h₃, if_neg h₃]
    exact hvalid 3 _

theorem not_truncated_of_sequence (h : 0 < sequenceLength bytes) : ¬ Truncated bytes := by
  cases bytes with
  | nil => exact id
  | cons lead i =>
    rintro ⟨hlt, -⟩
    rw [sequenceLength] at h
    split_ifs at h with hcontinued
    · have := hcontinued.1
      omega
    · omega

/-- A sequence is read without a look behind the text. -/
theorem utf8toutf32Within_of_sequence (h : 0 < sequenceLength bytes) :
    utf8toutf32Within bytes = some (sequenceLength bytes, (utf8toutf32 bytes).2) := by
  have hread := not_truncated_of_sequence h
  cases bytes with
  | nil => exact absurd h (Nat.lt_irrefl 0)
  | cons lead i =>
    rw [utf8toutf32Within, if_pos (bytesRead_le_iff.mpr hread), ← utf8toutf32_consumed]

/-- Where no sequence is, nothing is consumed, or the function reads behind the text. -/
theorem utf8toutf32Within_of_rest (hne : bytes ≠ []) (h : sequenceLength bytes = 0) :
    utf8toutf32Within bytes = if Truncated bytes then none else some (0, (utf8toutf32 bytes).2) := by
  cases bytes with
  | nil => exact absurd rfl hne
  | cons lead i =>
    rw [utf8toutf32Within]
    by_cases htruncated : Truncated (lead :: i)
    · rw [if_neg (not_not.mpr htruncated ∘ bytesRead_le_iff.mp), if_pos htruncated]
    · rw [if_pos (bytesRead_le_iff.mpr htruncated), if_neg htruncated, ← h, ← utf8toutf32_consumed]

/-- The character that is read depends on the sequence only. -/
theorem utf8toutf32Tail_take (x : ℕ) (i : List UInt8) (u : ℕ) :
    utf8toutf32Tail x (i.take x) u = utf8toutf32Tail x i u := by
  induction x generalizing i u with
  | zero => rfl
  | succ x ih =>
    cases i with
    | nil => rfl
    | cons b i =>
      rw [List.take_succ_cons, utf8toutf32Tail, utf8toutf32Tail]
      simp only [List.headD_cons, List.tail_cons, ih]
      rfl

/-- The function reads what its loop reads. -/
theorem utf8toutf32_congr {i' : List UInt8} (h : ∀ u, utf8toutf32Tail (tailLength lead) i u =
    utf8toutf32Tail (tailLength lead) i' u) : utf8toutf32 (lead :: i) = utf8toutf32 (lead :: i') := by
  rw [utf8toutf32, utf8toutf32, List.headD_cons, List.headD_cons]
  unfold tailLength at h
  by_cases h₁ : lead.toNat < 0x80
  · rw [if_pos h₁, if_pos h₁]
  rw [if_neg h₁] at h
  rw [if_neg h₁, if_neg h₁]
  by_cases h₂ : lead.toNat < 0xe0
  · rw [if_pos h₂] at h
    rw [if_pos h₂]
    simp only [List.tail_cons, Nat.add_one_sub_one, h]
    rfl
  rw [if_neg h₂] at h
  rw [if_neg h₂]
  by_cases h₃ : lead.toNat < 0xf0
  · rw [if_pos h₃] at h
    rw [if_pos h₃]
    simp only [List.tail_cons, Nat.add_one_sub_one, h]
    rfl
  · rw [if_neg h₃] at h
    rw [if_neg h₃]
    simp only [List.tail_cons, Nat.add_one_sub_one, h]
    rfl

theorem utf8toutf32_take : utf8toutf32 ((lead :: i).take (tailLength lead + 1)) =
    utf8toutf32 (lead :: i) := by
  rw [List.take_succ_cons]
  exact utf8toutf32_congr (utf8toutf32Tail_take _ _)

/-- The units that a sequence becomes. -/
def unitsOf (sequence : List UInt8) : List SQLWCHAR := utf32toutf16 (utf8toutf32 sequence).2

theorem unitsOf_take (h : 0 < sequenceLength bytes) :
    unitsOf (bytes.take (sequenceLength bytes)) = utf32toutf16 (utf8toutf32 bytes).2 := by
  cases bytes with
  | nil => exact absurd h (Nat.lt_irrefl 0)
  | cons lead i =>
    rw [sequenceLength] at h ⊢
    split_ifs at h ⊢
    · rw [unitsOf, utf8toutf32_take]
    · omega

/-- How many units the sequences at the front become. -/
def unitCount (bytes : List UInt8) : ℕ :=
  ((split sequenceLength bytes).1.map fun s => (unitsOf s).length).sum

theorem unitCount_of_zero (h : sequenceLength bytes = 0) : unitCount bytes = 0 := by
  rw [unitCount, split_of_zero h]
  rfl

theorem unitCount_of_pos (h : 0 < sequenceLength bytes) :
    unitCount bytes = (utf32toutf16 (utf8toutf32 bytes).2).length +
      unitCount (bytes.drop (sequenceLength bytes)) := by
  rw [unitCount, split_of_pos sequenceLength_fits h, List.map_cons, List.sum_cons, unitsOf_take h]
  rfl

/-- The text ends inside a sequence. -/
def EndsInside (bytes : List UInt8) : Prop := Truncated (split sequenceLength bytes).2

instance : DecidablePred EndsInside := fun _ => inferInstanceAs (Decidable (Truncated _))

theorem endsInside_of_zero (h : sequenceLength bytes = 0) : EndsInside bytes ↔ Truncated bytes := by
  rw [EndsInside, split_of_zero h]

theorem endsInside_of_pos (h : 0 < sequenceLength bytes) :
    EndsInside bytes ↔ EndsInside (bytes.drop (sequenceLength bytes)) := by
  rw [EndsInside, split_of_pos sequenceLength_fits h]
  rfl

/-- Where `utf8_as_sqlwchar` is asked to write: a null pointer with a size, or a buffer with its
own size. -/
inductive Target where
  | null (outMax : ℕ)
  | buffer (out : List SQLWCHAR)

/-- `out_max`. -/
def Target.outMax : Target → ℕ
  | .null outMax => outMax
  | .buffer out => out.length

/-- What may be written. -/
def Target.memory : Target → List SQLWCHAR
  | .null _ => []
  | .buffer out => out

/-- `decodeBody` on a text that ends with its last byte, with checked accesses. -/
def decodeWithin (outEnd : ℕ) (bytes : List UInt8) (s : DecodeState) :
    Step DecodeState (Option DecodeState) :=
  if bytes.length ≤ s.i ∨ outEnd ≤ s.pos then .done (some s)
  else
    match utf8toutf32Within (bytes.drop s.i) with
    | none => .done none
    | some (consumed, u32) =>
      if consumed = 0 then .done (some s)
      else
        let units := utf32toutf16 u32
        match Buffer.storeWithin s.out s.pos units with
        | none => .done none
        | some out => .next ⟨s.i + consumed, s.pos + units.length, out⟩

/-- The terminator, which is not written at a null pointer. -/
def terminateWithin (target : Target) (s : DecodeState) : Option (List SQLWCHAR) :=
  match target with
  | .null _ => some s.out
  | .buffer _ => Buffer.storeWithin s.out s.pos [0]

/-- `utf8_as_sqlwchar` with checked accesses: the memory after the call and the number
returned, or nothing if an access was out of bounds. -/
def utf8AsSqlwcharWithin (target : Target) (bytes : List UInt8) :
    Option (List SQLWCHAR × ℤ) :=
  (run (decodeWithin target.outMax bytes) (bytes.length + 1) ⟨0, 0, target.memory⟩).join.bind
    fun s => (terminateWithin target s).map fun out => (out, toSmallint s.pos)

theorem decodeWithin_done {s : DecodeState} (h : bytes.length ≤ s.i ∨ outEnd ≤ s.pos) :
    decodeWithin outEnd bytes s = .done (some s) := if_pos h

/-- The loop ends where no sequence is, unless it reads behind the text. -/
theorem decodeWithin_rest (hp : p < bytes.length) (hpos : pos < outEnd)
    (h : sequenceLength (bytes.drop p) = 0) :
    decodeWithin outEnd bytes ⟨p, pos, out⟩ =
      .done (if Truncated (bytes.drop p) then none else some ⟨p, pos, out⟩) := by
  have hne : bytes.drop p ≠ [] := by
    rw [ne_eq, List.drop_eq_nil_iff]
    omega
  rw [decodeWithin, if_neg (by dsimp only; omega), utf8toutf32Within_of_rest hne h]
  by_cases htruncated : Truncated (bytes.drop p)
  · rw [if_pos htruncated, if_pos htruncated]
  · rw [if_neg htruncated, if_neg htruncated]
    exact if_pos rfl

/-- A round of the loop converts a sequence, if there is room for its units. -/
theorem decodeWithin_sequence (out : List SQLWCHAR) (hp : p < bytes.length) (hpos : pos < outEnd)
    (h : 0 < sequenceLength (bytes.drop p)) :
    decodeWithin outEnd bytes ⟨p, pos, out⟩ =
      if pos + (utf32toutf16 (utf8toutf32 (bytes.drop p)).2).length ≤ out.length then
        .next ⟨p + sequenceLength (bytes.drop p),
          pos + (utf32toutf16 (utf8toutf32 (bytes.drop p)).2).length,
          Buffer.store out pos (utf32toutf16 (utf8toutf32 (bytes.drop p)).2)⟩
      else .done none := by
  rw [decodeWithin, if_neg (by dsimp only; omega), utf8toutf32Within_of_sequence h]
  simp only [if_neg (Nat.ne_of_gt h)]
  by_cases hroom : pos + (utf32toutf16 (utf8toutf32 (bytes.drop p)).2).length ≤ out.length
  · rw [if_pos hroom, Buffer.storeWithin_of_le hroom]
  · rw [if_neg hroom, Buffer.storeWithin_of_lt (by omega)]

/-- Where a text does not begin with a sequence, or all of it is read, what is left is known. -/
theorem drop_cases (p : ℕ) (bytes : List UInt8) :
    bytes.length ≤ p ∧ bytes.drop p = [] ∨ p < bytes.length ∧ bytes.drop p ≠ [] := by
  rcases Nat.lt_or_ge p bytes.length with h | h
  · refine Or.inr ⟨h, ?_⟩
    rw [ne_eq, List.drop_eq_nil_iff]
    omega
  · exact Or.inl ⟨h, List.drop_eq_nil_of_le h⟩

/-- A buffer is kept exactly if there is a place left for the terminator and the text does
not end inside a sequence. -/
theorem run_buffer_isSome_iff (xs : List UInt8) (hdrop : bytes.drop p = xs)
    (hout : out.length = outEnd) (hfuel : xs.length < fuel) (buf : List SQLWCHAR) :
    ((run (decodeWithin outEnd bytes) fuel ⟨p, pos, out⟩).join.bind
      (terminateWithin (.buffer buf))).isSome ↔ pos + unitCount xs < outEnd ∧ ¬ EndsInside xs := by
  induction xs using induction_on sequenceLength_fits generalizing p pos out fuel with
  | rest xs h =>
    obtain ⟨fuel, rfl⟩ : ∃ n, fuel = n + 1 := ⟨fuel - 1, by omega⟩
    rw [unitCount_of_zero h, endsInside_of_zero h, Nat.add_zero]
    by_cases hfull : outEnd ≤ pos
    · rw [run_succ_done (decodeWithin_done (Or.inr hfull))]
      simp only [Option.join_some, Option.bind_some, terminateWithin,
        Buffer.storeWithin_of_lt (show out.length < pos + [(0 : SQLWCHAR)].length by
          rw [List.length_singleton]; omega), Option.isSome_none]
      simp [Nat.not_lt.mpr hfull]
    have hpos : pos < outEnd := Nat.lt_of_not_le hfull
    have hroom : pos + [(0 : SQLWCHAR)].length ≤ out.length := by
      rw [List.length_singleton]
      omega
    rcases drop_cases p bytes with ⟨hend, hnil⟩ | ⟨hp, hne⟩
    · rw [run_succ_done (decodeWithin_done (Or.inl hend)), ← hdrop, hnil]
      simp [terminateWithin, Buffer.storeWithin_of_le hroom, hpos, Truncated]
    · rw [run_succ_done (decodeWithin_rest hp hpos (by rwa [hdrop])), hdrop]
      by_cases htruncated : Truncated xs
      · simp [htruncated]
      · simp [htruncated, terminateWithin, Buffer.storeWithin_of_le hroom, hpos]
  | piece xs h ih =>
    obtain ⟨fuel, rfl⟩ : ∃ n, fuel = n + 1 := ⟨fuel - 1, by omega⟩
    rw [unitCount_of_pos h, endsInside_of_pos h]
    by_cases hfull : outEnd ≤ pos
    · rw [run_succ_done (decodeWithin_done (Or.inr hfull))]
      simp only [Option.join_some, Option.bind_some, terminateWithin,
        Buffer.storeWithin_of_lt (show out.length < pos + [(0 : SQLWCHAR)].length by
          rw [List.length_singleton]; omega), Option.isSome_none]
      refine iff_of_false (by simp) fun hboth => ?_
      have := hboth.1
      omega
    have hp : p < bytes.length := by
      have hlen := congrArg List.length hdrop
      have := sequenceLength_fits xs
      rw [List.length_drop] at hlen
      omega
    have hstep := decodeWithin_sequence out hp (Nat.lt_of_not_le hfull) (by rwa [hdrop])
    rw [hdrop] at hstep
    by_cases hroom : pos + (utf32toutf16 (utf8toutf32 xs).2).length ≤ out.length
    · rw [if_pos hroom] at hstep
      have hlater : bytes.drop (p + sequenceLength xs) = xs.drop (sequenceLength xs) := by
        rw [← List.drop_drop, hdrop]
      have hless : (xs.drop (sequenceLength xs)).length < fuel := by
        have := sequenceLength_fits xs
        rw [List.length_drop]
        omega
      rw [run_succ_next hstep, ih hlater (by rw [Buffer.length_store hroom, hout]) hless,
        Nat.add_assoc]
    · rw [if_neg hroom] at hstep
      rw [run_succ_done hstep]
      refine iff_of_false (by simp) fun hboth => ?_
      have := hboth.1
      omega

/-- At a null pointer there must be nothing to write. -/
theorem run_null_isSome_iff (xs : List UInt8) (hdrop : bytes.drop p = xs)
    (hfuel : xs.length < fuel) (hmax : 0 < outEnd) :
    (run (decodeWithin outEnd bytes) fuel ⟨p, 0, []⟩).join.isSome ↔
      unitCount xs = 0 ∧ ¬ EndsInside xs := by
  induction xs using induction_on sequenceLength_fits generalizing p fuel with
  | rest xs h =>
    obtain ⟨fuel, rfl⟩ : ∃ n, fuel = n + 1 := ⟨fuel - 1, by omega⟩
    rw [unitCount_of_zero h, endsInside_of_zero h]
    rcases drop_cases p bytes with ⟨hend, hnil⟩ | ⟨hp, hne⟩
    · rw [run_succ_done (decodeWithin_done (Or.inl hend)), ← hdrop, hnil]
      simp [Truncated]
    · rw [run_succ_done (decodeWithin_rest hp hmax (by rwa [hdrop])), hdrop]
      by_cases htruncated : Truncated xs
      · simp [htruncated]
      · simp [htruncated]
  | piece xs h ih =>
    obtain ⟨fuel, rfl⟩ : ∃ n, fuel = n + 1 := ⟨fuel - 1, by omega⟩
    have hp : p < bytes.length := by
      have hlen := congrArg List.length hdrop
      have := sequenceLength_fits xs
      rw [List.length_drop] at hlen
      omega
    rw [unitCount_of_pos h, endsInside_of_pos h]
    have hstep := decodeWithin_sequence [] hp hmax (by rwa [hdrop])
    rw [hdrop] at hstep
    generalize hunits : utf32toutf16 (utf8toutf32 xs).2 = units at *
    cases units with
    | nil =>
      simp only [List.length_nil, Nat.add_zero, if_pos (Nat.le_refl 0), Buffer.store_nil] at hstep
      have hlater : bytes.drop (p + sequenceLength xs) = xs.drop (sequenceLength xs) := by
        rw [← List.drop_drop, hdrop]
      have hless : (xs.drop (sequenceLength xs)).length < fuel := by
        have := sequenceLength_fits xs
        rw [List.length_drop]
        omega
      rw [run_succ_next hstep, ih hlater hless, List.length_nil, Nat.zero_add]
    | cons u units =>
      rw [if_neg (by simp)] at hstep
      rw [run_succ_done hstep]
      refine iff_of_false (by simp) fun hboth => ?_
      have := hboth.1
      rw [List.length_cons] at this
      omega

/-- The terminator and all units have a place in the target, and the text does not end inside
a sequence. At a null pointer nothing may be written, and without a size nothing is read. -/
def Target.Suffices (target : Target) (bytes : List UInt8) : Prop :=
  match target with
  | .null outMax => outMax = 0 ∨ unitCount bytes = 0 ∧ ¬ EndsInside bytes
  | .buffer out => unitCount bytes < out.length ∧ ¬ EndsInside bytes

/-- `utf8_as_sqlwchar` keeps its bounds exactly if the target suffices. -/
theorem utf8AsSqlwcharWithin_isSome_iff (target : Target) (bytes : List UInt8) :
    (utf8AsSqlwcharWithin target bytes).isSome ↔ target.Suffices bytes := by
  have hdrop : bytes.drop 0 = bytes := rfl
  have hfuel : bytes.length < bytes.length + 1 := Nat.lt_succ_self _
  cases target with
  | null outMax =>
    have hkept : (utf8AsSqlwcharWithin (.null outMax) bytes).isSome =
        (run (decodeWithin outMax bytes) (bytes.length + 1) ⟨0, 0, []⟩).join.isSome := by
      simp only [utf8AsSqlwcharWithin, Target.outMax, Target.memory]
      cases (run (decodeWithin outMax bytes) (bytes.length + 1) ⟨0, 0, []⟩).join with
      | none => rfl
      | some s => rfl
    rw [hkept, Target.Suffices]
    rcases Nat.eq_zero_or_pos outMax with rfl | hmax
    · have hdone := @decodeWithin_done bytes 0 ⟨0, 0, []⟩ (Or.inr (Nat.le_refl 0))
      rw [run_succ_done hdone]
      simp
    · rw [run_null_isSome_iff bytes hdrop hfuel hmax]
      simp [Nat.ne_of_gt hmax]
  | buffer out =>
    have hrun := @run_buffer_isSome_iff bytes out 0 0 _ _ bytes hdrop rfl hfuel out
    rw [Nat.zero_add] at hrun
    rw [Target.Suffices, ← hrun]
    simp only [utf8AsSqlwcharWithin, Target.outMax, Target.memory]
    cases (run (decodeWithin out.length bytes) (bytes.length + 1) ⟨0, 0, out⟩).join with
    | none => rfl
    | some s => simp

end MatrixOdbc.Util
