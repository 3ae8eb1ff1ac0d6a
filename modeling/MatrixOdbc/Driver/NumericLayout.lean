import MatrixOdbc.Driver.NumericSpelling
import MatrixOdbc.Driver.NumericText

/-!
# The layout of the text of an SQL_NUMERIC_STRUCT

Behind the loop over the digits, `sqlnum_to_str` adds zeros and the point for a large scale,
cuts off decimals that are too many and adds the zeros of a negative scale. The text is right
for numbers that fill the loop, unless a byte in front of the text misleads the truncation,
the digits of a whole number are too many, or the buffer is too small.
-/

namespace MatrixOdbc.Driver

open CText

/-- The digits in front of the point; the zero of a large scale is added behind the loop. -/
def wholePart (count scale n : ℕ) : List UInt8 :=
  if scale ≤ count then Decimal.fixed (count - scale) (n / 10 ^ scale) else [0x30]

/-- The text without truncation and for a scale that is not negative. -/
def spelled (count : ℕ) (reqscale : ℤ) (n : ℕ) : List UInt8 :=
  if 0 < reqscale then wholePart count reqscale.toNat n ++ 0x2e :: Decimal.fixed reqscale.toNat n
  else Decimal.fixed count n

namespace LaidOut

variable {mem : ℤ → UInt8} {terminator : ℤ} {laid : ℕ} {text : NumText} {s : List UInt8}

/-- The point and the zeros of a large scale. -/
theorem addPoint {count n : ℕ} {reqscale : ℤ} (hn : n < 10 ^ count)
    (h : LaidOut mem terminator (pointedDigits count reqscale.toNat n).length text
      (pointedDigits count reqscale.toNat n)) :
    LaidOut mem terminator (spelled count reqscale n).length (text.addPoint count reqscale).1
        (spelled count reqscale n) ∧
      (text.addPoint count reqscale).2 = min reqscale count := by
  by_cases hlarge : count < reqscale
  · have hdigits : pointedDigits count reqscale.toNat n = Decimal.fixed count n := by
      rw [pointedDigits, if_neg (by omega)]
    have hspelled : spelled count reqscale n = 0x30 :: 0x2e ::
        (List.replicate (reqscale - count).toNat 0x30 ++ Decimal.fixed count n) := by
      have hsum : reqscale.toNat = (reqscale - count).toNat + count := by omega
      rw [spelled, if_pos (by omega), wholePart, if_neg (by omega), hsum,
        Decimal.fixed_of_lt hn]
      rfl
    rw [hdigits] at h
    have hzeros := h.prepend_zeros (reqscale - count).toNat
    have hpoint := (hzeros.prepend (c := 0x2e) (by decide)).prepend (c := 0x30) (by decide)
    rw [NumText.addPoint, if_pos hlarge, hspelled]
    refine ⟨?_, (min_eq_right (by omega)).symm⟩
    convert hpoint using 1
    simp
    omega
  · have hspelled : spelled count reqscale n = pointedDigits count reqscale.toNat n := by
      rw [spelled, pointedDigits]
      by_cases hpos : 0 < reqscale
      · rw [if_pos hpos, if_pos (by omega), wholePart, if_pos (by omega)]
      · rw [if_neg hpos, if_neg (by omega)]
    rw [NumText.addPoint, if_neg hlarge, hspelled]
    exact ⟨h, (min_eq_left (by omega)).symm⟩

end LaidOut

namespace NumText

/-- Cutting digits off writes zeros, down from the last place. -/
theorem cutDigits_spec (reqprec reqscale : ℕ) (text : NumText) (last : ℤ) (calcprec : ℕ) :
    ∃ text' : NumText,
      cutDigits reqprec reqscale text last calcprec =
        (text', last - min reqscale (calcprec - reqprec),
          calcprec - min reqscale (calcprec - reqprec),
          reqscale - min reqscale (calcprec - reqprec)) ∧
      text'.numstr = text.numstr ∧
      (∀ q, text'.mem q = if last - min reqscale (calcprec - reqprec) < q ∧ q ≤ last then 0
        else text.mem q) ∧
      ∀ w, w ∈ text'.writes ↔ w ∈ text.writes ∨
        ∃ i : ℕ, i < min reqscale (calcprec - reqprec) ∧ w = (last - i, 1) := by
  induction reqscale generalizing text last calcprec with
  | zero =>
    refine ⟨text, ?_, rfl, fun q => ?_, fun w => ?_⟩
    · simp [cutDigits]
    · rw [if_neg (by simp)]
    · simp
  | succ reqscale ih =>
    rw [cutDigits]
    by_cases hmore : reqprec < calcprec
    · obtain ⟨text', hrun, hnumstr, hmem, hwrites⟩ := ih (text.put last 0) (last - 1) (calcprec - 1)
      have hcount : min (reqscale + 1) (calcprec - reqprec) =
          min reqscale (calcprec - 1 - reqprec) + 1 := by omega
      rw [if_pos hmore, hrun, hcount]
      generalize min reqscale (calcprec - 1 - reqprec) = count at *
      refine ⟨text', ?_, hnumstr, fun q => ?_, fun w => ?_⟩
      · simp only [Prod.mk.injEq, true_and]
        omega
      · rw [hmem, put]
        dsimp only
        by_cases hlast : q = last
        · subst hlast
          rw [if_neg (by omega), if_pos (by omega), Function.update_self]
        · rw [Function.update_of_ne hlast]
          by_cases hcut : last - 1 - count < q ∧ q ≤ last - 1
          · rw [if_pos hcut, if_pos (by omega)]
          · rw [if_neg hcut, if_neg (by omega)]
      · rw [hwrites, put, List.mem_cons]
        constructor
        · rintro ((rfl | hw) | ⟨i, hi, rfl⟩)
          · exact Or.inr ⟨0, by omega, by simp⟩
          · exact Or.inl hw
          · exact Or.inr ⟨i + 1, by omega, by push_cast; ring_nf⟩
        · rintro (hw | ⟨i, hi, rfl⟩)
          · exact Or.inl (Or.inr hw)
          · cases i with
            | zero => exact Or.inl (Or.inl (by simp))
            | succ i => exact Or.inr ⟨i, by omega, by push_cast; ring_nf⟩
    · have hcount : min (reqscale + 1) (calcprec - reqprec) = 0 := by omega
      rw [if_neg hmore, hcount]
      refine ⟨text, by simp, rfl, fun q => ?_, fun w => by simp⟩
      rw [if_neg (by simp)]

end NumText

namespace LaidOut

variable {mem : ℤ → UInt8} {terminator : ℤ} {laid : ℕ} {text : NumText} {front tail : List UInt8}

/-- Digits that are cut off the end of the text. -/
theorem cutDigits {reqprec reqscale calcprec : ℕ}
    (h : LaidOut mem terminator laid text (front ++ tail))
    (htail : tail.length = min reqscale (calcprec - reqprec)) :
    ∃ text' : NumText,
      NumText.cutDigits reqprec reqscale text (text.numstr + (front ++ tail).length) calcprec =
        (text', text.numstr + front.length, calcprec - tail.length, reqscale - tail.length) ∧
      text'.numstr = text.numstr ∧ LaidOut mem terminator laid text' front := by
  obtain ⟨text', hrun, hnumstr, hmem, hwrites⟩ := NumText.cutDigits_spec reqprec reqscale text
    (text.numstr + (front ++ tail).length) calcprec
  have hplace := h.place
  have hshort := h.short
  rw [← htail] at hrun hmem hwrites
  simp only [List.length_append, Nat.cast_add] at hrun hmem hwrites hshort ⊢
  refine ⟨text', ?_, hnumstr, ⟨⟨fun i c hc => ?_, fun hzero => ?_, ?_⟩, ?_, by omega,
    fun q hq => ?_, fun w hw => ?_, ?_⟩⟩
  · rw [hrun]
    simp only [Prod.mk.injEq, true_and, and_true]
    omega
  · have hlt := (List.getElem?_eq_some_iff.mp hc).1
    rw [hnumstr, hmem, if_neg (by omega)]
    exact h.string.spells i c (by rw [List.getElem?_append_left hlt, hc])
  · exact h.string.nonzero (List.mem_append_left _ hzero)
  · rw [hnumstr, hmem]
    by_cases hcut : tail = []
    · have hends := h.string.ends
      rw [hcut, List.append_nil] at hends
      rw [hcut, if_neg (by simp)]
      exact hends
    · have := List.length_pos_iff.mpr hcut
      rw [if_pos (by omega)]
  · rw [hnumstr, hplace]
  · rw [hnumstr] at hq
    rw [hmem, if_neg (by omega), h.below q hq]
  · rw [hnumstr]
    rcases (hwrites w).mp hw with hw | ⟨i, hi, rfl⟩
    · exact h.inside w hw
    · dsimp only
      omega
  · rw [hnumstr]
    exact (hwrites _).mpr (Or.inl h.first)

/-- The end of the text is found when the byte in front of it is not zero. -/
theorem strlen_front {s : List UInt8} (h : LaidOut mem terminator laid text s)
    (hbyte : mem text.numstr ≠ 0) :
    strlen text.mem (terminator - text.numstr).toNat text.numstr = s.length + 1 := by
  have hplace := h.place
  have hshort := h.short
  rw [← h.below _ le_rfl] at hbyte
  have hstring := h.string.of_cons rfl hbyte
  exact hstring.strlen_eq (by rw [List.length_cons]; omega)

/-- A last point that is left is cut off, too. -/
theorem cutPoint {s : List UInt8} (h : LaidOut mem terminator laid text (s ++ [0x2e])) :
    text.mem (text.numstr + (s ++ [0x2e]).length) = 0x2e ∧
      LaidOut mem terminator laid (text.put (text.numstr + (s ++ [0x2e]).length) 0) s := by
  have hplace := h.place
  have hshort := h.short
  have hend : text.numstr + (s ++ [0x2e]).length = text.numstr + 1 + s.length := by
    simp
    omega
  rw [List.length_append, List.length_singleton] at hshort
  rw [hend]
  refine ⟨h.string.last, ⟨h.string.cut, hplace, by omega, fun q hq => ?_, fun w hw => ?_, ?_⟩⟩
  · simp only [NumText.put] at hq ⊢
    rw [Function.update_of_ne (by omega), h.below q hq]
  · simp only [NumText.put, List.mem_cons] at hw ⊢
    rcases hw with rfl | hw
    · dsimp only
      omega
    · exact h.inside w hw
  · exact List.mem_cons_of_mem _ h.first

/-- The truncation of a text whose end is found. -/
theorem truncate_of_ne {reqprec calcprec : ℕ} {reqscale : ℤ}
    (h : LaidOut mem terminator laid text (front ++ tail)) (hbyte : mem text.numstr ≠ 0)
    (hmore : reqprec < calcprec) (hpos : 0 < reqscale)
    (htail : tail.length = min reqscale.toNat (calcprec - reqprec)) :
    ∃ text' : NumText, text'.numstr = text.numstr ∧ LaidOut mem terminator laid text' front ∧
      text.truncate terminator calcprec reqscale reqprec =
        if reqprec < calcprec - tail.length ∧ reqscale.toNat - tail.length = 0 then
          (text', calcprec - tail.length, ((reqscale.toNat - tail.length : ℕ) : ℤ),
            SqlnumTrunc.whole)
        else
          (if text'.mem (text.numstr + front.length) = 0x2e then
            text'.put (text.numstr + front.length) 0 else text',
            calcprec - tail.length, ((reqscale.toNat - tail.length : ℕ) : ℤ),
            SqlnumTrunc.frac) := by
  obtain ⟨text', hrun, hnumstr, hlaid⟩ := h.cutDigits htail
  refine ⟨text', hnumstr, hlaid, ?_⟩
  have hlast : text.numstr +
      (strlen text.mem (terminator - text.numstr).toNat text.numstr : ℕ) - 1 =
      text.numstr + (front ++ tail).length := by
    rw [h.strlen_front hbyte]
    push_cast
    omega
  rw [NumText.truncate, if_pos ⟨hmore, hpos⟩]
  simp only [hlast, hrun]

/-- A zero in front of the text misleads the truncation: it writes in front of the text. -/
theorem truncate_of_eq {reqprec calcprec : ℕ} {reqscale : ℤ} {s : List UInt8}
    (h : LaidOut mem terminator laid text s) (hbyte : mem text.numstr = 0)
    (hmore : reqprec < calcprec) (hpos : 0 < reqscale) {count : ℕ}
    (hcount : count = min reqscale.toNat (calcprec - reqprec)) :
    ∃ text' : NumText, text'.numstr = text.numstr ∧
      IsString text'.mem (text.numstr + 1) s ∧
      (∀ w, w ∈ text'.writes ↔ w ∈ text.writes ∨
        ∃ i : ℕ, i < count ∧ w = (text.numstr - 1 - i, 1)) ∧
      text.truncate terminator calcprec reqscale reqprec =
        if reqprec < calcprec - count ∧ reqscale.toNat - count = 0 then
          (text', calcprec - count, ((reqscale.toNat - count : ℕ) : ℤ), SqlnumTrunc.whole)
        else
          (if text'.mem (text.numstr - 1 - count) = 0x2e then
            text'.put (text.numstr - 1 - count) 0 else text',
            calcprec - count, ((reqscale.toNat - count : ℕ) : ℤ), SqlnumTrunc.frac) := by
  obtain ⟨text', hrun, hnumstr, hmem, hwrites⟩ := NumText.cutDigits_spec reqprec reqscale.toNat
    text (text.numstr - 1) calcprec
  rw [← hcount] at hrun hmem hwrites
  have hlast : text.numstr +
      (strlen text.mem (terminator - text.numstr).toNat text.numstr : ℕ) - 1 =
      text.numstr - 1 := by
    have hzero : strlen text.mem (terminator - text.numstr).toNat text.numstr = 0 := by
      rw [← h.below _ le_rfl] at hbyte
      cases (terminator - text.numstr).toNat with
      | zero => rfl
      | succ fuel => rw [strlen, if_pos hbyte]
    rw [hzero]
    simp
  refine ⟨text', hnumstr, h.string.congr fun q hq _ => ?_, hwrites, ?_⟩
  · rw [hmem, if_neg (by omega)]
  · rw [NumText.truncate, if_pos ⟨hmore, hpos⟩]
    simp only [hlast, hrun]

end LaidOut

namespace NumText

/-- Bytes that are moved down, one after the other. -/
theorem moveDown_spec (reqscale : ℤ) (count : ℕ) (i : ℤ) (text : NumText) :
    (text.moveDown reqscale count i).numstr = text.numstr ∧
      (∀ w, w ∈ (text.moveDown reqscale count i).writes ↔ w ∈ text.writes ∨
        ∃ k : ℕ, k < count ∧ w = (text.numstr + (i + k) - reqscale, 1)) ∧
      (0 ≤ reqscale → ∀ q, (text.moveDown reqscale count i).mem q =
        if text.numstr + i - reqscale ≤ q ∧ q < text.numstr + i - reqscale + count then
          text.mem (q + reqscale)
        else text.mem q) := by
  induction count generalizing i text with
  | zero =>
    refine ⟨rfl, fun w => by simp [moveDown], fun _ q => ?_⟩
    rw [if_neg (by simp)]
    rfl
  | succ count ih =>
    obtain ⟨hnumstr, hwrites, hmem⟩ := ih (i + 1)
      (text.put (text.numstr + i - reqscale) (text.mem (text.numstr + i)))
    rw [moveDown]
    refine ⟨hnumstr, fun w => ?_, fun hpos q => ?_⟩
    · rw [hwrites, put, List.mem_cons]
      constructor
      · rintro ((rfl | hw) | ⟨k, hk, rfl⟩)
        · exact Or.inr ⟨0, by omega, by simp⟩
        · exact Or.inl hw
        · exact Or.inr ⟨k + 1, by omega, by push_cast; ring_nf⟩
      · rintro (hw | ⟨k, hk, rfl⟩)
        · exact Or.inl (Or.inr hw)
        · cases k with
          | zero => exact Or.inl (Or.inl (by simp))
          | succ k => exact Or.inr ⟨k, by omega, by push_cast; ring_nf⟩
    · have hnum : (text.put (text.numstr + i - reqscale) (text.mem (text.numstr + i))).numstr =
          text.numstr := rfl
      have hput : (text.put (text.numstr + i - reqscale) (text.mem (text.numstr + i))).mem =
          Function.update text.mem (text.numstr + i - reqscale) (text.mem (text.numstr + i)) := rfl
      rw [hmem hpos, hnum, hput]
      by_cases hfirst : q = text.numstr + i - reqscale
      · -- the first byte is not moved again
        have hpast : ¬ (text.numstr + (i + 1) - reqscale ≤ q ∧
            q < text.numstr + (i + 1) - reqscale + count) := by omega
        have hmoved : text.numstr + i - reqscale ≤ q ∧
            q < text.numstr + i - reqscale + (count + 1 : ℕ) := by omega
        rw [if_neg hpast, if_pos hmoved, hfirst, Function.update_self, sub_add_cancel]
      · by_cases hmoved : text.numstr + i - reqscale ≤ q ∧
            q < text.numstr + i - reqscale + (count + 1 : ℕ)
        · rw [if_pos (by omega), if_pos hmoved, Function.update_of_ne (by omega)]
        · rw [if_neg (by omega), if_neg hmoved, Function.update_of_ne hfirst]

end NumText

/-- The zeros of a negative scale. -/
theorem LaidOut.addZeros {mem : ℤ → UInt8} {terminator : ℤ} {text : NumText} {s : List UInt8}
    (h : LaidOut mem terminator s.length text s) (hne : s ≠ []) {reqscale : ℤ}
    (hneg : reqscale < 0) (hmin : -128 < reqscale) :
    LaidOut mem terminator (s ++ List.replicate (-reqscale).toNat 0x30).length
      (text.addZeros s.length reqscale) (s ++ List.replicate (-reqscale).toNat 0x30) := by
  obtain ⟨zeros, hzeros⟩ : ∃ zeros : ℕ, (zeros : ℤ) = -reqscale := ⟨(-reqscale).toNat, by omega⟩
  obtain ⟨hnumstr, hwrites, hmem⟩ := NumText.moveDown_spec zeros s.length 1 text
  have hmem := hmem (by omega)
  have hplace := h.place
  have hlength := List.length_pos_iff.mpr hne
  have hcount : ((zeros : ℤ) % 2 ^ 64).toNat = zeros := by omega
  have hrun : text.addZeros s.length reqscale =
      ({ text.moveDown zeros s.length 1 with numstr := text.numstr - zeros } : NumText).fill
        (text.numstr - zeros + s.length + 1) 0x30 zeros := by
    simp only [NumText.addZeros, if_neg hmin.ne', ← hzeros, hnumstr, hcount]
  have hlengths : (s ++ List.replicate zeros 0x30).length = s.length + zeros := by simp
  rw [← hzeros, Int.toNat_natCast, hrun, hlengths]
  simp only [NumText.fill]
  refine ⟨⟨fun i c hc => ?_, fun hzero => ?_, ?_⟩, ?_, hlengths.le, fun q hq => ?_,
    fun w hw => ?_, ?_⟩
  · dsimp only
    have hlt := (List.getElem?_eq_some_iff.mp hc).1
    rw [hlengths] at hlt
    by_cases hdigit : i < s.length
    · rw [List.getElem?_append_left hdigit] at hc
      rw [if_neg (by omega), hmem, if_pos (by omega), ← h.string.spells i c hc]
      congr 1
      omega
    · rw [List.getElem?_append_right (by omega), List.getElem?_replicate, if_pos (by omega)] at hc
      rw [if_pos (by omega)]
      exact Option.some.inj hc
  · rcases List.mem_append.mp hzero with hzero | hzero
    · exact h.string.nonzero hzero
    · exact absurd (List.eq_of_mem_replicate hzero) (by decide)
  · dsimp only
    rw [if_neg (by omega), hmem, if_neg (by omega)]
    have hends := h.string.ends
    rw [hlengths]
    convert hends using 2
    omega
  · dsimp only
    omega
  · dsimp only at hq ⊢
    rw [if_neg (by omega), hmem, if_neg (by omega), h.below q (by omega)]
  · dsimp only at hw ⊢
    rcases List.mem_cons.mp hw with rfl | hw
    · dsimp only
      omega
    · rcases (hwrites w).mp hw with hw | ⟨k, hk, rfl⟩
      · have := h.inside w hw
        omega
      · dsimp only
        omega
  · dsimp only
    refine List.mem_cons_of_mem _ ((hwrites _).mpr (Or.inr ⟨0, hlength, ?_⟩))
    simp
    omega

end MatrixOdbc.Driver
