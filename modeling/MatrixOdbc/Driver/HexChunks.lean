import MatrixOdbc.Driver.ByteChunks
import MatrixOdbc.Driver.InsertParam

/-!
# Hexadecimal text in chunks

`copy_binhex_result` of `driver/utility.cc` gives the digits of a binary value to
the application, in as many calls as its buffers need. The offset counts bytes of
the value over all calls, but the last test compares it, multiplied by the size of
a character, with what has remained for the call alone. A chunk in the middle is
then reported as the last one.
-/

namespace MatrixOdbc.Driver

open Util

/-- The types for which the template is instantiated: a character for each byte of the
digit vector, and `sizeof`. -/
class CharUnit (T : Type) where
  unit : UInt8 → T
  size : ℕ
  size_pos : 0 < size

instance : CharUnit UInt8 := ⟨id, 1, by decide⟩

instance : CharUnit SQLWCHAR := ⟨UInt8.toUInt16, 2, by decide⟩

/-- What a call leaves behind. `pcbValue` is `none` when it is not written. -/
structure HexOutcome (T : Type) where
  rc : SQLRETURN
  result : List T
  pcbValue : Option ℕ
  offset : Option ℕ
  deriving DecidableEq

/-- `copy_binhex_result` into the buffer `target`. The offset is `none` before the first
call for a column. -/
def copyBinhex {T : Type} [CharUnit T] (opts : StmtOptions) (srcOffset : Option ℕ)
    (target : List T) (src : List UInt8) : HexOutcome T :=
  let cut := opts.maxLength ≠ 0
  let cbValueMax := if cut then min target.length (opts.maxLength + 1) else target.length
  let src := if cut then src.take ((opts.maxLength + 1) / 2) else src
  match srcOffset with
  | some offset =>
    if src.length ≤ offset then ⟨.SQL_NO_DATA_FOUND, target, none, srcOffset⟩
    else rest opts target cbValueMax offset src
  | none => rest opts target cbValueMax 0 src
where
  /-- The function behind the check of the offset. -/
  rest (opts : StmtOptions) (target : List T) (cbValueMax offset : ℕ) (src : List UInt8) :
      HexOutcome T :=
    let src := src.drop offset
    let length := min src.length (if cbValueMax ≠ 0 then (cbValueMax - 1) / 2 else 0)
    let offset := offset + length
    { rc := if src.length ≤ offset * CharUnit.size T then .SQL_SUCCESS
        else .SQL_SUCCESS_WITH_INFO
      result := if target ≠ [] ∧ opts.retrieveData then
          Buffer.store target 0
            ((hexText (src.take length)).map CharUnit.unit ++ [CharUnit.unit 0])
        else target
      pcbValue := if opts.retrieveData then some (src.length * 2 * CharUnit.size T) else none
      offset := some offset }

/-- A call for each of the buffers, from the first call for the column on. -/
def hexAll {T : Type} [CharUnit T] (opts : StmtOptions) (src : List UInt8) :
    Option ℕ → List (List T) → List (HexOutcome T)
  | _, [] => []
  | srcOffset, target :: targets =>
    copyBinhex opts srcOffset target src ::
      hexAll opts src (copyBinhex opts srcOffset target src).offset targets

variable {T : Type} {maxLength pos : ℕ} {rest src : List UInt8} {target : List T}

/-- The bytes whose digits the application may have. -/
def hexLimit (maxLength : ℕ) (src : List UInt8) : List UInt8 :=
  if maxLength ≠ 0 then src.take ((maxLength + 1) / 2) else src

/-- The number of bytes whose digits and terminator a buffer of `n` characters may take. -/
def hexCapacity (maxLength n : ℕ) : ℕ :=
  ((if maxLength ≠ 0 then min n (maxLength + 1) else n) - 1) / 2

/-- The text of a chunk, with the terminator when there is a buffer. -/
def chunkText [CharUnit T] (target : List T) (bytes : List UInt8) : List T :=
  if target = [] then [] else (hexText bytes).map CharUnit.unit ++ [CharUnit.unit 0]

/-- The call delivers the next chunk of the bytes that remain: their digits go into the
buffer, the length of all the remaining text is reported, and a truncation exactly when
not all of it has been delivered. -/
structure DeliversHex [CharUnit T] (maxLength : ℕ) (rest : List UInt8) (target : List T)
    (out : HexOutcome T) : Prop where
  result_eq : out.result =
    Buffer.store target 0 (chunkText target (rest.take (hexCapacity maxLength target.length)))
  fits : (chunkText target (rest.take (hexCapacity maxLength target.length))).length ≤
    target.length
  pcbValue_eq : out.pcbValue = some ((hexText rest).length * CharUnit.size T)
  rc_eq : out.rc = if hexCapacity maxLength target.length < rest.length then
    .SQL_SUCCESS_WITH_INFO else .SQL_SUCCESS

/-- What a sequence of calls delivers of the bytes that remain. The first call always
delivers, an empty value included; the call after the last chunk returns
`SQL_NO_DATA_FOUND`. -/
def DeliversAllHex [CharUnit T] (maxLength : ℕ) (isFirst : Bool) (rest : List UInt8) :
    List (List T) → List (HexOutcome T) → Prop
  | [], [] => True
  | target :: targets, out :: outs =>
    if isFirst = false ∧ rest = [] then
      (out.rc = .SQL_NO_DATA_FOUND ∧ out.result = target ∧ out.pcbValue = none) ∧
        DeliversAllHex maxLength false rest targets outs
    else
      DeliversHex maxLength rest target out ∧
        DeliversAllHex maxLength false (rest.drop (hexCapacity maxLength target.length))
          targets outs
  | _, _ => False

theorem length_hexText (s : List UInt8) : (hexText s).length = 2 * s.length := by
  simp [hexText, List.length_flatMap, List.map_const', List.sum_replicate, Nat.mul_comm]

/-- The digits for which there is capacity fit the buffer with the terminator. -/
theorem hexCapacity_fits (maxLength : ℕ) (htarget : target ≠ []) :
    2 * hexCapacity maxLength target.length + 1 ≤ target.length := by
  have hpos := List.length_pos_iff.mpr htarget
  unfold hexCapacity
  split_ifs
  · omega
  · omega

variable [CharUnit T] {targets : List (List T)} {outs : List (HexOutcome T)}

/-- The return code of a call that delivers `capacity` of `remaining` bytes after `done`
bytes in earlier calls is right. -/
def CodeRight (size done remaining capacity : ℕ) : Prop :=
  remaining ≤ capacity ∨ (done + capacity) * size < remaining

/-- The offset in the value is `pos`, or not set at the start. -/
def OffsetAt (srcOffset : Option ℕ) (pos : ℕ) : Prop :=
  srcOffset = none ∧ pos = 0 ∨ srcOffset = some pos

/-- A call behind the last byte. -/
theorem copyBinhex_done (opts : StmtOptions) (target : List T) {src : List UInt8}
    (hpos : (hexLimit opts.maxLength src).length ≤ pos) :
    copyBinhex opts (some pos) target src =
      ⟨.SQL_NO_DATA_FOUND, target, none, some pos⟩ := by
  unfold copyBinhex
  exact if_pos hpos

/-- The capacity as the function computes it. -/
theorem hexCapacity_eq (maxLength n : ℕ) :
    (if (if maxLength ≠ 0 then min n (maxLength + 1) else n) ≠ 0 then
      ((if maxLength ≠ 0 then min n (maxLength + 1) else n) - 1) / 2 else 0) =
      hexCapacity maxLength n := by
  unfold hexCapacity
  generalize (if maxLength ≠ 0 then min n (maxLength + 1) else n) = cbValueMax
  split_ifs with h
  · rfl
  · rw [not_not.mp h]

theorem take_min_length (s : List UInt8) (n : ℕ) : s.take (min s.length n) = s.take n := by
  rw [Nat.min_comm, ← List.take_take, List.take_length]

/-- Without a buffer nothing is stored. -/
theorem store_chunkText (target : List T) (bytes : List UInt8) :
    (if target ≠ [] ∧ True then
        Buffer.store target 0 ((hexText bytes).map CharUnit.unit ++ [CharUnit.unit 0])
      else target) = Buffer.store target 0 (chunkText target bytes) := by
  by_cases htarget : target = []
  · simp [htarget, chunkText]
  · simp [htarget, chunkText]

/-- The outcome of a call for which `rest` remains behind the offset `pos`. -/
def hexCopied (maxLength pos : ℕ) (rest : List UInt8) (target : List T) : HexOutcome T where
  rc := if rest.length ≤
      (pos + min rest.length (hexCapacity maxLength target.length)) * CharUnit.size T then
    .SQL_SUCCESS else .SQL_SUCCESS_WITH_INFO
  result := Buffer.store target 0
    (chunkText target (rest.take (hexCapacity maxLength target.length)))
  pcbValue := some ((hexText rest).length * CharUnit.size T)
  offset := some (pos + min rest.length (hexCapacity maxLength target.length))

/-- Every other call gives out the digits of the next bytes and moves the offset. -/
theorem copyBinhex_eq {srcOffset : Option ℕ} (maxLength : ℕ) (target : List T)
    (hoffset : OffsetAt srcOffset pos)
    (hmore : srcOffset = none ∨ pos < (hexLimit maxLength src).length) :
    copyBinhex ⟨maxLength, true⟩ srcOffset target src =
      hexCopied maxLength pos ((hexLimit maxLength src).drop pos) target := by
  have hrest : copyBinhex ⟨maxLength, true⟩ srcOffset target src =
      copyBinhex.rest ⟨maxLength, true⟩ target
        (if maxLength ≠ 0 then min target.length (maxLength + 1) else target.length) pos
        (hexLimit maxLength src) := by
    rcases hoffset with ⟨rfl, rfl⟩ | rfl
    · rfl
    · rcases hmore with h | h
      · simp at h
      · unfold copyBinhex
        exact if_neg (not_le.mpr h)
  rw [hrest, copyBinhex.rest, hexCopied]
  simp only [hexCapacity_eq, take_min_length, store_chunkText, if_true, length_hexText,
    Nat.mul_comm 2]

/-- Text, buffer and reported length are right in every call; the return code is so when
the comparison of the offset with the rest comes out right. -/
theorem hexCopied_delivers_iff (maxLength pos : ℕ) (rest : List UInt8) (target : List T) :
    DeliversHex maxLength rest target (hexCopied maxLength pos rest target) ↔
      CodeRight (CharUnit.size T) pos rest.length (hexCapacity maxLength target.length) := by
  have hsize : 0 < CharUnit.size T := CharUnit.size_pos
  have hfits : (chunkText target (rest.take (hexCapacity maxLength target.length))).length ≤
      target.length := by
    by_cases htarget : target = []
    · simp [chunkText, htarget]
    · have hroom := hexCapacity_fits maxLength htarget
      rw [chunkText, if_neg htarget, List.length_append, List.length_map, length_hexText,
        List.length_take, List.length_singleton]
      omega
  have hcode : (hexCopied maxLength pos rest target).rc =
      (if hexCapacity maxLength target.length < rest.length then
        SQLRETURN.SQL_SUCCESS_WITH_INFO else .SQL_SUCCESS) ↔
      CodeRight (CharUnit.size T) pos rest.length (hexCapacity maxLength target.length) := by
    unfold CodeRight hexCopied
    by_cases hall : rest.length ≤ hexCapacity maxLength target.length
    · have hend : rest.length ≤ (pos + rest.length) * CharUnit.size T :=
        (Nat.le_add_left _ _).trans (Nat.le_mul_of_pos_right _ hsize)
      simp [hall, hend]
    · rw [Nat.min_eq_right (by omega), if_pos (by omega : hexCapacity _ _ < _)]
      by_cases hcode : rest.length ≤
          (pos + hexCapacity maxLength target.length) * CharUnit.size T
      · simp [hcode, hall]
      · simp [hcode, not_le.mp hcode]
  rw [← hcode]
  exact ⟨fun h => h.rc_eq, fun h => ⟨rfl, hfits, rfl, h⟩⟩

/-- After the last byte every call reports that there is no more. -/
theorem hexAll_done (maxLength : ℕ) (src : List UInt8) (targets : List (List T))
    (hpos : (hexLimit maxLength src).length ≤ pos) :
    DeliversAllHex maxLength false [] targets
      (hexAll ⟨maxLength, true⟩ src (some pos) targets) := by
  induction targets with
  | nil => trivial
  | cons target targets ih =>
    rw [hexAll, copyBinhex_done ⟨maxLength, true⟩ target hpos, DeliversAllHex,
      if_pos ⟨rfl, rfl⟩]
    exact ⟨⟨rfl, rfl, rfl⟩, ih⟩

/-- The return codes come out right for buffers that take so many bytes each, when `done`
bytes have been delivered before: every buffer either takes all that remains, or it finds
more remaining than the bytes delivered up to its end, times the size of a character. -/
def HexSplits (size done length : ℕ) (capacities : List ℕ) : Prop :=
  ∀ before capacity after, capacities = before ++ capacity :: after →
    length ≤ done + before.sum + capacity ∨
      (done + before.sum + capacity) * size + (done + before.sum) < length

/-- The condition is one for the first buffer and one for the others. -/
theorem hexSplits_cons_iff {size done length capacity : ℕ} {capacities : List ℕ} :
    HexSplits size done length (capacity :: capacities) ↔
      (length ≤ done + capacity ∨ (done + capacity) * size + done < length) ∧
        HexSplits size (done + capacity) length capacities := by
  constructor
  · intro h
    refine ⟨by simpa using h [] capacity capacities rfl, ?_⟩
    rintro before c after rfl
    have hlater := h (capacity :: before) c after rfl
    rwa [List.sum_cons, ← Nat.add_assoc] at hlater
  · rintro ⟨hfirst, hlater⟩ before c after heq
    cases before with
    | nil =>
      obtain ⟨rfl, rfl⟩ := List.cons.inj heq
      simpa using hfirst
    | cons b before =>
      obtain ⟨rfl, hafter⟩ := List.cons.inj heq
      have hthere := hlater before c after hafter
      rwa [List.sum_cons, ← Nat.add_assoc]

/-- Buffers behind the last byte never break the condition. -/
theorem hexSplits_of_le {size done length : ℕ} (capacities : List ℕ) (h : length ≤ done) :
    HexSplits size done length capacities := by
  intro before capacity after _
  left
  omega

/-- What the calls from an offset on deliver. -/
theorem hexAll_delivers_iff_of_offset {srcOffset : Option ℕ} (maxLength : ℕ)
    (src : List UInt8) (targets : List (List T)) (hoffset : OffsetAt srcOffset pos)
    (hpos : pos ≤ (hexLimit maxLength src).length) :
    DeliversAllHex maxLength srcOffset.isNone ((hexLimit maxLength src).drop pos) targets
        (hexAll ⟨maxLength, true⟩ src srcOffset targets) ↔
      HexSplits (CharUnit.size T) pos (hexLimit maxLength src).length
        (targets.map fun target => hexCapacity maxLength target.length) := by
  induction targets generalizing srcOffset pos with
  | nil => simp [hexAll, DeliversAllHex, HexSplits]
  | cons target targets ih =>
    by_cases hmore : srcOffset = none ∨ pos < (hexLimit maxLength src).length
    · have hlater : ¬ (srcOffset.isNone = false ∧ (hexLimit maxLength src).drop pos = []) := by
        rintro ⟨hsome, hnil⟩
        rcases hmore with rfl | hlt
        · simp at hsome
        · rw [List.drop_eq_nil_iff] at hnil
          omega
      rw [hexAll, copyBinhex_eq maxLength target hoffset hmore, DeliversAllHex, if_neg hlater,
        hexCopied_delivers_iff, List.map_cons, hexSplits_cons_iff, List.drop_drop,
        List.length_drop]
      generalize hcap : hexCapacity maxLength target.length = c
      have hcode : CodeRight (CharUnit.size T) pos ((hexLimit maxLength src).length - pos) c ↔
          ((hexLimit maxLength src).length ≤ pos + c ∨
            (pos + c) * CharUnit.size T + pos < (hexLimit maxLength src).length) := by
        unfold CodeRight
        omega
      rw [hcode, hexCopied, List.length_drop, hcap]
      refine and_congr_right fun _ => ?_
      by_cases hroom : pos + c ≤ (hexLimit maxLength src).length
      · rw [Nat.min_eq_right (by omega)]
        exact ih (Or.inr rfl) hroom
      · rw [Nat.min_eq_left (by omega), Nat.add_sub_cancel' hpos,
          List.drop_of_length_le (by omega)]
        exact iff_of_true (hexAll_done maxLength src targets le_rfl)
          (hexSplits_of_le _ (by omega))
    · rw [not_or] at hmore
      obtain ⟨hsome, hend⟩ := hmore
      have hsrc : srcOffset = some pos := by
        rcases hoffset with ⟨h, -⟩ | h
        · exact absurd h hsome
        · exact h
      rw [hsrc, List.drop_of_length_le (not_lt.mp hend)]
      exact iff_of_true (hexAll_done maxLength src (target :: targets) (not_lt.mp hend))
        (hexSplits_of_le _ (not_lt.mp hend))

/-- For every value, every maximal length and every sequence of buffers of `SQLCHAR` or
`SQLWCHAR`, the calls deliver the digits with the right return codes exactly if every
buffer takes all that remains or is small enough beside it. -/
theorem hexAll_delivers_iff (T : Type) [CharUnit T] (maxLength : ℕ) (src : List UInt8)
    (targets : List (List T)) :
    DeliversAllHex maxLength true (hexLimit maxLength src) targets
        (hexAll ⟨maxLength, true⟩ src none targets) ↔
      HexSplits (CharUnit.size T) 0 (hexLimit maxLength src).length
        (targets.map fun target => hexCapacity maxLength target.length) :=
  hexAll_delivers_iff_of_offset maxLength src targets (Or.inl ⟨rfl, rfl⟩) (Nat.zero_le _)

/-- Two buffers with room for the digits of one byte each. -/
def narrowBuffers : List (List UInt8) := [[0, 0, 0], [0, 0, 0]]

/-- One such buffer of `SQLWCHAR`. -/
def wideBuffers : List (List SQLWCHAR) := [[0, 0, 0]]

/-- Of the bytes `01 02 03`, the second of two buffers for one byte each is reported as
the last one; with `SQLWCHAR` the same happens to the first buffer for `01 02`. -/
theorem hexAll_reports_success_early :
    hexAll ⟨0, true⟩ [1, 2, 3] none narrowBuffers =
        [⟨.SQL_SUCCESS_WITH_INFO, [0x30, 0x31, 0], some 6, some 1⟩,
          ⟨.SQL_SUCCESS, [0x30, 0x32, 0], some 4, some 2⟩] ∧
      ¬ DeliversAllHex 0 true (hexLimit 0 [1, 2, 3]) narrowBuffers
        (hexAll ⟨0, true⟩ [1, 2, 3] none narrowBuffers) ∧
      hexAll ⟨0, true⟩ [1, 2] none wideBuffers =
        [⟨.SQL_SUCCESS, [0x30, 0x31, 0], some 8, some 1⟩] ∧
      ¬ DeliversAllHex 0 true (hexLimit 0 [1, 2]) wideBuffers
        (hexAll ⟨0, true⟩ [1, 2] none wideBuffers) := by
  have hnarrow : hexAll ⟨0, true⟩ [1, 2, 3] none narrowBuffers =
      [⟨.SQL_SUCCESS_WITH_INFO, [0x30, 0x31, 0], some 6, some 1⟩,
        ⟨.SQL_SUCCESS, [0x30, 0x32, 0], some 4, some 2⟩] := by decide +kernel
  have hwide : hexAll ⟨0, true⟩ [1, 2] none wideBuffers =
      [⟨.SQL_SUCCESS, [0x30, 0x31, 0], some 8, some 1⟩] := by decide +kernel
  refine ⟨hnarrow, ?_, hwide, ?_⟩
  · rw [hnarrow, narrowBuffers, DeliversAllHex, if_neg (by simp), DeliversAllHex,
      if_neg (by decide)]
    rintro ⟨-, hsecond, -⟩
    exact absurd hsecond.rc_eq (by decide)
  · rw [hwide, wideBuffers, DeliversAllHex, if_neg (by simp)]
    rintro ⟨hfirst, -⟩
    exact absurd hfirst.rc_eq (by decide)

end MatrixOdbc.Driver
