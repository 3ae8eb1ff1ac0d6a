import MatrixOdbc.Driver.NumericDigits

/-!
# The digits of an SQL_NUMERIC_STRUCT

The loop of `sqlnum_to_str` writes all digits of the number, and the decimal point between
them. It leaves the array of the words as soon as all digits are written before the loop is
over, and only a number of 39 digits is not done before.
-/

namespace MatrixOdbc.Driver

open CText

/-- The words in the other order. -/
theorem reverse_unscaleBe (ary : List ℕ) :
    (unscaleBe ary).reverse = sqlnumUnscaleLe ary.reverse := by
  induction ary using unscaleBe.induct with
  | case1 high low ary ih =>
    rw [unscaleBe, List.reverse_cons, ih, sqlnumUnscaleLe, sqlnumUnscaleLe, List.reverse_cons,
      List.reverse_cons, List.reverse_cons, List.append_assoc]
    exact (Limbs.unscale_append _ _ _).symm
  | case2 ary hshort =>
    cases ary with
    | nil => simp [unscaleBe, sqlnumUnscaleLe, Limbs.unscale]
    | cons top ary =>
      cases ary with
      | nil => simp [unscaleBe, sqlnumUnscaleLe, Limbs.unscale]
      | cons low ary => exact absurd rfl (hshort top low ary)

/-- Empty words in front stay empty. -/
theorem unscaleBe_zero_cons {ary : List ℕ} (hword : ∀ limb ∈ ary, limb < 2 ^ 32) :
    unscaleBe (0 :: ary) = 0 :: unscaleBe ary := by
  cases ary with
  | nil => simp [unscaleBe]
  | cons low ary =>
    rw [unscaleBe, Nat.zero_div, Nat.zero_mod, Nat.zero_mul, Nat.add_zero,
      Nat.mod_eq_of_lt (hword low List.mem_cons_self)]

/-- The start of the division does not matter behind empty words. -/
theorem sqlnumUnscaleBe_eq {ary : List ℕ} (hword : ∀ limb ∈ ary, limb < 2 ^ 32) {start : ℕ}
    (hempty : ∀ limb ∈ ary.take start, limb = 0) :
    sqlnumUnscaleBe ary start = unscaleBe ary := by
  induction ary generalizing start with
  | nil => simp [sqlnumUnscaleBe]
  | cons high ary ih =>
    cases start with
    | zero => rfl
    | succ start =>
      obtain rfl : high = 0 := hempty high (by simp)
      have hrest := fun limb hlimb => hword limb (List.mem_cons_of_mem 0 hlimb)
      have hsame := @ih hrest start fun limb hlimb =>
        hempty limb (List.mem_cons_of_mem 0 hlimb)
      rw [unscaleBe_zero_cons hrest, ← hsame, sqlnumUnscaleBe, sqlnumUnscaleBe,
        List.take_succ_cons, List.drop_succ_cons, List.cons_append]

/-- The words of an even number of bytes. -/
theorem wordsOf_spec {val : List UInt8} {count : ℕ} (hlength : val.length = 2 * count) :
    (wordsOf val).length = count ∧ (∀ limb ∈ wordsOf val, limb < 2 ^ 16) ∧
      Nat.ofDigits (2 ^ 16) (wordsOf val) = Nat.ofDigits 256 (val.map UInt8.toNat) := by
  induction count generalizing val with
  | zero =>
    obtain rfl := List.length_eq_zero_iff.mp hlength
    simp [wordsOf]
  | succ count ih =>
    match val, hlength with
    | low :: high :: val, hlength =>
      obtain ⟨hcount, hlimbs, hvalue⟩ := @ih val (by simp at hlength; omega)
      have hlow := low.toNat_lt
      have hhigh := high.toNat_lt
      refine ⟨by rw [wordsOf, List.length_cons, hcount], ?_, ?_⟩
      · intro limb hlimb
        rcases List.mem_cons.mp hlimb with rfl | hlimb
        · omega
        · exact hlimbs limb hlimb
      · rw [wordsOf, Nat.ofDigits_cons, hvalue, List.map_cons, List.map_cons, Nat.ofDigits_cons,
          Nat.ofDigits_cons]
        ring

/-- The words hold the number of the struct. -/
theorem wordsHold_wordsOf (sqlnum : SqlNumericStruct) :
    WordsHold (wordsOf sqlnum.val.toList) sqlnum.number := by
  obtain ⟨hlength, hlimbs, hvalue⟩ := @wordsOf_spec sqlnum.val.toList 8 (by simp)
  refine ⟨Limbs.normal_of_lt ?_ (by norm_num) hlimbs, hlength, hvalue⟩
  rw [← List.length_pos_iff, hlength]
  decide

/-- The text has been written backwards from a terminator, into so many bytes in front of it,
and nothing else was changed. -/
structure LaidOut (mem : ℤ → UInt8) (terminator : ℤ) (laid : ℕ) (text : NumText)
    (s : List UInt8) : Prop where
  string : IsString text.mem (text.numstr + 1) s
  place : text.numstr + 1 + laid = terminator
  short : s.length ≤ laid
  below : ∀ q ≤ text.numstr, text.mem q = mem q
  inside : ∀ w ∈ text.writes, text.numstr < w.1 ∧ w.1 + w.2 ≤ terminator + 1
  first : (text.numstr + 1, 1) ∈ text.writes

namespace LaidOut

variable {mem : ℤ → UInt8} {terminator : ℤ} {laid : ℕ} {text : NumText} {s : List UInt8}
  {c : UInt8}

/-- The terminator. -/
theorem start (mem : ℤ → UInt8) (terminator : ℤ) :
    LaidOut mem terminator 0
      (({ mem := mem, writes := [], numstr := terminator } : NumText).prepend 0) [] := by
  refine ⟨⟨by simp, by simp, ?_⟩, ?_, le_rfl, fun q hq => ?_, fun w hw => ?_, ?_⟩
  · simp [NumText.prepend, NumText.put]
  · simp [NumText.prepend, NumText.put]
  · simp only [NumText.prepend] at hq
    exact Function.update_of_ne (by dsimp only at hq ⊢; omega) _ _
  · obtain rfl : w = (terminator, 1) := by simpa [NumText.prepend, NumText.put] using hw
    simp [NumText.prepend, NumText.put]
  · simp [NumText.prepend, NumText.put]

/-- A byte more. -/
theorem prepend (h : LaidOut mem terminator laid text s) (hc : c ≠ 0) :
    LaidOut mem terminator (laid + 1) (text.prepend c) (c :: s) := by
  have hplace := h.place
  refine ⟨?_, ?_, ?_, fun q hq => ?_, fun w hw => ?_, ?_⟩
  · simp only [NumText.prepend, NumText.put, sub_add_cancel]
    exact h.string.cons hc
  · simp only [NumText.prepend]
    omega
  · rw [List.length_cons]
    exact Nat.succ_le_succ h.short
  · simp only [NumText.prepend] at hq
    have hbelow := h.below q (by omega)
    rw [← hbelow]
    exact Function.update_of_ne (by omega) _ _
  · simp only [NumText.prepend, NumText.put] at hw ⊢
    rcases List.mem_cons.mp hw with rfl | hw
    · dsimp only
      omega
    · have := h.inside w hw
      omega
  · simp [NumText.prepend, NumText.put]

/-- Zeros in front. -/
theorem prepend_zeros (h : LaidOut mem terminator laid text s) (count : ℕ) :
    LaidOut mem terminator (laid + count)
      ((fun text => NumText.prepend text 0x30)^[count] text)
      (List.replicate count 0x30 ++ s) := by
  induction count with
  | zero => exact h
  | succ count ih =>
    rw [Function.iterate_succ_apply', List.replicate_succ, List.cons_append]
    exact ih.prepend (by decide)

end LaidOut

/-- The digits of a number, with the point in front of the last ones if there are so many. -/
def pointedDigits (count point n : ℕ) : List UInt8 :=
  if 0 < point ∧ point ≤ count then
    Decimal.fixed (count - point) (n / 10 ^ point) ++ 0x2e :: Decimal.fixed point n
  else Decimal.fixed count n

/-- The text with one digit more. -/
theorem pointedDigits_succ (count point n : ℕ) (s : List UInt8) :
    pointedDigits (count + 1) point n ++ s =
      pointedDigits count (point - 1) (n / 10) ++
        if point = 1 then 0x2e :: Decimal.digitByte (n % 10) :: s
        else Decimal.digitByte (n % 10) :: s := by
  match point with
  | 0 => simp [pointedDigits, Decimal.fixed]
  | 1 => simp [pointedDigits, Decimal.fixed]
  | point + 2 =>
    rw [if_neg (by omega), pointedDigits, pointedDigits]
    by_cases hpoint : point + 2 ≤ count + 1
    · have hfixed : Decimal.fixed (point + 2) n =
          Decimal.fixed (point + 1) (n / 10) ++ [Decimal.digitByte (n % 10)] := rfl
      rw [if_pos (by omega), if_pos (by omega), hfixed, pow_succ', ← Nat.div_div_eq_div_mul]
      have hsub : count + 1 - (point + 2) = count - (point + 2 - 1) := by omega
      simp [hsub]
    · rw [if_neg (by omega), if_neg (by omega), Decimal.fixed]
      simp

namespace DigitLoop

variable {loop : DigitLoop} {n : ℕ}

/-- The words hold the number, and the words in front of the first one are empty. -/
structure Holds (loop : DigitLoop) (n : ℕ) : Prop where
  words : WordsHold loop.expanded.reverse n
  empty : ∀ limb ∈ loop.expanded.take loop.maxSpace, limb = 0
  bound : loop.maxSpace ≤ 8

/-- The first seven words and the last one. -/
theorem Holds.split (h : loop.Holds n) :
    ∃ front, front.length = 7 ∧ loop.expanded = front ++ [loop.lastWord] := by
  have hlength : loop.expanded.length = 8 := by simpa using h.words.2.1
  refine ⟨loop.expanded.take 7, by simp [hlength], ?_⟩
  have hdrop : loop.expanded.drop 7 = [loop.lastWord] := by
    rw [List.drop_eq_getElem_cons (by omega), List.drop_eq_nil_of_le (by omega), lastWord,
      List.getD, List.getElem?_eq_getElem (by omega), Option.getD_some]
  rw [← hdrop, List.take_append_drop]

/-- The search leaves empty words behind, and stops at the end or at a word that is not empty. -/
theorem skipEmpty_spec {expanded : List ℕ} {maxSpace : ℕ} (hbound : maxSpace ≤ expanded.length)
    (hempty : ∀ limb ∈ expanded.take maxSpace, limb = 0) :
    skipEmpty expanded maxSpace ≤ expanded.length ∧
      (∀ limb ∈ expanded.take (skipEmpty expanded maxSpace), limb = 0) ∧
      ∀ limb, expanded[skipEmpty expanded maxSpace]? = some limb → limb ≠ 0 := by
  set rest := expanded.drop maxSpace with hrest
  have hsplit : rest.takeWhile (· = 0) ++ rest.dropWhile (· = 0) = rest :=
    List.takeWhile_append_dropWhile
  have hlength : (rest.takeWhile (· = 0)).length ≤ expanded.length - maxSpace := by
    rw [← List.length_drop]
    exact (List.takeWhile_prefix _).length_le
  have hskip : skipEmpty expanded maxSpace = maxSpace + (rest.takeWhile (· = 0)).length := rfl
  rw [hskip]
  refine ⟨by omega, ?_, ?_⟩
  · intro limb hlimb
    rw [List.take_add, ← hrest] at hlimb
    rcases List.mem_append.mp hlimb with hlimb | hlimb
    · exact hempty limb hlimb
    · rw [← List.prefix_iff_eq_take.mp (List.takeWhile_prefix _)] at hlimb
      simpa using List.mem_takeWhile_imp hlimb
  · intro limb hlimb
    rw [← List.getElem?_drop, ← hrest] at hlimb
    have hhead := List.head?_dropWhile_not (fun limb => decide (limb = 0)) rest
    have hfirst := @List.getElem?_append_right _ (rest.takeWhile (· = 0))
      (rest.dropWhile (· = 0)) (rest.takeWhile (· = 0)).length le_rfl
    rw [hsplit, Nat.sub_self, hlimb, ← List.head?_eq_getElem?] at hfirst
    rw [← hfirst] at hhead
    simpa using hhead

/-- A number is zero exactly if its words are. -/
theorem ofDigits_eq_zero_iff (limbs : List ℕ) :
    Nat.ofDigits (2 ^ 16) limbs = 0 ↔ ∀ limb ∈ limbs, limb = 0 := by
  induction limbs with
  | nil => simp
  | cons low high ih =>
    rw [Nat.ofDigits_cons, Nat.add_eq_zero_iff, Nat.mul_eq_zero, or_iff_right (by decide), ih,
      List.forall_mem_cons]

/-- The search ends in the array exactly if the number is not zero. -/
theorem Holds.skip (h : loop.Holds n) :
    loop.skip.Holds n ∧ (n ≠ 0 → loop.skip.maxSpace ≤ 7) ∧ (n = 0 → loop.skip.maxSpace = 8) := by
  obtain ⟨-, hlength, hvalue⟩ := h.words
  rw [List.length_reverse] at hlength
  obtain ⟨hbound, hempty, hstop⟩ := skipEmpty_spec (by rw [hlength]; exact h.bound) h.empty
  rw [hlength] at hbound
  refine ⟨⟨h.words, hempty, hbound⟩, fun hn => ?_, fun hn => ?_⟩
  · by_contra hend
    have height : skipEmpty loop.expanded loop.maxSpace = 8 := by
      simp only [DigitLoop.skip] at hend
      omega
    rw [height, List.take_of_length_le hlength.le] at hempty
    refine hn (hvalue.symm.trans ((ofDigits_eq_zero_iff _).mpr fun limb hlimb => ?_))
    exact hempty limb (List.mem_reverse.mp hlimb)
  · rw [hn] at hvalue
    by_contra hinside
    have hlt : skipEmpty loop.expanded loop.maxSpace < loop.expanded.length := by
      simp only [DigitLoop.skip] at hinside
      omega
    refine hstop _ (List.getElem?_eq_getElem hlt) ?_
    exact (ofDigits_eq_zero_iff _).mp hvalue _ (List.mem_reverse.mpr (List.getElem_mem hlt))

/-- The words behind the division: the last one is left to be divided. -/
theorem Holds.divide (h : loop.Holds n) {expanded : List ℕ}
    (hexpanded : expanded = unscaleBe loop.expanded) :
    WordsHold (expanded.set 7 (expanded.getD 7 0 / 10)).reverse (n / 10) ∧
      expanded.getD 7 0 % 10 = n % 10 := by
  have hreverse : expanded.reverse = sqlnumUnscaleLe loop.expanded.reverse := by
    rw [hexpanded, reverse_unscaleBe]
  have hquotient := h.words.unscale
  have hremainder := h.words.head_unscale
  have hlength : expanded.reverse.length = 8 := by
    rw [hreverse, sqlnumUnscaleLe, Limbs.length_unscale]
    exact h.words.2.1
  rw [← hreverse] at hquotient hremainder
  cases hcase : expanded.reverse with
  | nil => simp [hcase] at hlength
  | cons low high =>
    have hhigh : high.reverse.length = 7 := by simpa [hcase] using hlength
    have hback : expanded = high.reverse ++ [low] := by
      rw [← List.reverse_reverse expanded, hcase, List.reverse_cons]
    have hlast : expanded.getD 7 0 = low := by
      rw [hback, List.getD, List.getElem?_append_right hhigh.le, hhigh]
      rfl
    rw [hcase] at hquotient hremainder
    refine ⟨?_, by rw [hlast]; exact hremainder⟩
    rw [hlast, hback, List.set_append_right _ _ hhigh.le, hhigh]
    simpa [Limbs.divideLowest] using hquotient

/-- The loop divides all words, where it starts from or not. -/
theorem Holds.unscale_eq (h : loop.Holds n) :
    sqlnumUnscaleBe loop.expanded loop.maxSpace = unscaleBe loop.expanded := by
  refine sqlnumUnscaleBe_eq (fun limb hlimb => ?_) h.empty
  exact h.words.1.lt_word (by norm_num) limb (List.mem_reverse.mpr hlimb)

/-- A round of the loop writes the last digit. -/
theorem extractDigits_step (h : loop.Holds n) (hn : n ≠ 0) (reqscale : ℤ) (digits j : ℕ) :
    ∃ next : DigitLoop,
      extractDigits reqscale (digits + 1) j loop = extractDigits reqscale digits (j + 1) next ∧
      next.Holds (n / 10) ∧
      next.text = (if (j : ℤ) = reqscale - 1 then
        (loop.text.prepend (Decimal.digitByte (n % 10))).prepend 0x2e
        else loop.text.prepend (Decimal.digitByte (n % 10))) ∧
      next.calcprec = loop.calcprec + 1 ∧ next.outside = loop.outside := by
  obtain ⟨hskip, hinside, -⟩ := h.skip
  have hle := hinside hn
  have houtside : loop.skip.outside = loop.outside := by
    have hlt : ¬ 8 ≤ skipEmpty loop.expanded loop.maxSpace := by
      simp only [DigitLoop.skip] at hle
      omega
    simp [DigitLoop.skip, hlt]
  -- the words of the round, divided from the first one that is not empty
  set expanded := sqlnumUnscaleBe loop.skip.expanded loop.skip.maxSpace with hexpanded
  obtain ⟨hwords, hdigit⟩ := hskip.divide (hexpanded.trans hskip.unscale_eq)
  refine ⟨{ loop.skip with expanded := expanded }.digit reqscale j, ?_, ⟨hwords, ?_, hskip.bound⟩,
    ?_, rfl, houtside⟩
  · rw [extractDigits]
    dsimp only
    by_cases hlast : 7 ≤ loop.skip.maxSpace
    · have hseven : loop.skip.maxSpace = 7 := le_antisymm hle hlast
      have hsame : expanded = loop.skip.expanded := by
        obtain ⟨front, hfront, hsplit⟩ := hskip.split
        rw [hexpanded, hseven, sqlnumUnscaleBe, hsplit, List.take_append_of_le_length hfront.ge,
          List.drop_append_of_le_length hfront.ge, ← hfront, List.drop_length, List.take_length]
        simp [unscaleBe]
      have hne : loop.skip.lastWord ≠ 0 := by
        intro hzero
        obtain ⟨front, hfront, hsplit⟩ := hskip.split
        have hempty := hskip.empty
        rw [hseven, hsplit, List.take_append_of_le_length hfront.ge, ← hfront,
          List.take_length] at hempty
        refine hn (hskip.words.2.2.symm.trans ((ofDigits_eq_zero_iff _).mpr fun limb hlimb => ?_))
        rw [List.mem_reverse, hsplit, hzero] at hlimb
        rcases List.mem_append.mp hlimb with hlimb | hlimb
        · exact hempty limb hlimb
        · exact List.mem_singleton.mp hlimb
      rw [if_pos hlast, if_neg hne, hsame]
    · rw [if_neg hlast]
  · intro limb hlimb
    rw [digit] at hlimb
    dsimp only at hlimb
    rw [List.take_set_of_le hle, hexpanded, sqlnumUnscaleBe, List.take_append_of_le_length] at hlimb
    · rw [List.take_take, min_self] at hlimb
      exact hskip.empty limb hlimb
    · have hlength : loop.skip.expanded.length = 8 := by simpa using hskip.words.2.1
      rw [List.length_take, hlength]
      omega
  · simp only [digit, lastWord, hdigit]
    rfl

/-- The search leaves the array when there is nothing left of the number. -/
theorem extractDigits_zero (h : loop.Holds 0) (reqscale : ℤ) (digits j : ℕ) :
    (extractDigits reqscale (digits + 1) j loop).outside = true := by
  obtain ⟨hskip, -, hend⟩ := h.skip
  have height := hend rfl
  have houtside : loop.skip.outside = true := by
    have hge : 8 ≤ skipEmpty loop.expanded loop.maxSpace := by
      simp only [DigitLoop.skip] at height
      omega
    simp [DigitLoop.skip, hge]
  have hlast : loop.skip.lastWord = 0 := by
    obtain ⟨front, hfront, hsplit⟩ := hskip.split
    have hwords := (ofDigits_eq_zero_iff _).mp hskip.words.2.2
    exact hwords _ (List.mem_reverse.mpr (hsplit ▸ by simp))
  rw [extractDigits, if_pos (by omega), if_pos hlast, zero]
  split_ifs
  · exact houtside
  · exact houtside

/-- It does so for every number with less digits than the loop has rounds. -/
theorem extractDigits_outside {digits : ℕ} (h : loop.Holds n) (hn : n < 10 ^ digits)
    (reqscale : ℤ) (j : ℕ) :
    (extractDigits reqscale (digits + 1) j loop).outside = true := by
  induction digits generalizing loop n j with
  | zero =>
    obtain rfl : n = 0 := by simpa using hn
    exact extractDigits_zero h reqscale 0 j
  | succ digits ih =>
    by_cases hzero : n = 0
    · subst hzero
      exact extractDigits_zero h reqscale (digits + 1) j
    · obtain ⟨next, hrun, hnext, -⟩ := extractDigits_step h hzero reqscale (digits + 1) j
      rw [hrun]
      exact ih hnext (by rw [pow_succ] at hn; omega) (j + 1)

/-- The text of a number with as many digits as the loop has rounds. -/
theorem extractDigits_written {digits : ℕ} {mem : ℤ → UInt8} {terminator : ℤ} {s : List UInt8}
    (h : loop.Holds n) (hn : 0 < digits → 10 ^ (digits - 1) ≤ n)
    (hwritten : LaidOut mem terminator s.length loop.text s) (reqscale : ℤ) (j : ℕ) :
    LaidOut mem terminator (pointedDigits digits (reqscale - j).toNat n ++ s).length
        (extractDigits reqscale digits j loop).text
        (pointedDigits digits (reqscale - j).toNat n ++ s) ∧
      (extractDigits reqscale digits j loop).calcprec = loop.calcprec + digits ∧
      (extractDigits reqscale digits j loop).outside = loop.outside := by
  induction digits generalizing loop n s j with
  | zero =>
    have hnil : pointedDigits 0 (reqscale - j).toNat n = [] := by
      rw [pointedDigits, if_neg (by omega)]
      rfl
    rw [hnil]
    exact ⟨hwritten, rfl, rfl⟩
  | succ digits ih =>
    have hle : 10 ^ digits ≤ n := hn (Nat.succ_pos _)
    have hzero : n ≠ 0 := (lt_of_lt_of_le (Nat.pow_pos (by decide)) hle).ne'
    obtain ⟨next, hrun, hnext, htext, hcalcprec, houtside⟩ :=
      extractDigits_step h hzero reqscale digits j
    have hdigit : Decimal.digitByte (n % 10) ≠ 0 := by
      intro heq
      have hbyte := Decimal.toNat_digitByte (Nat.mod_lt n (by decide : 0 < 10))
      rw [heq, UInt8.toNat_zero] at hbyte
      omega
    have hmark : (j : ℤ) = reqscale - 1 ↔ (reqscale - j).toNat = 1 := by omega
    have hplaced : LaidOut mem terminator
        (if (reqscale - j).toNat = 1 then 0x2e :: Decimal.digitByte (n % 10) :: s
          else Decimal.digitByte (n % 10) :: s).length next.text
        (if (reqscale - j).toNat = 1 then 0x2e :: Decimal.digitByte (n % 10) :: s
          else Decimal.digitByte (n % 10) :: s) := by
      rw [htext]
      by_cases hone : (reqscale - j).toNat = 1
      · rw [if_pos hone, if_pos (hmark.mpr hone)]
        exact (hwritten.prepend hdigit).prepend (by decide)
      · rw [if_neg hone, if_neg (hmark.not.mpr hone)]
        exact hwritten.prepend hdigit
    have hrest : 0 < digits → 10 ^ (digits - 1) ≤ n / 10 := by
      intro hpos
      rw [Nat.le_div_iff_mul_le (by decide), ← pow_succ, Nat.sub_add_cancel hpos]
      exact hle
    have hpoint : (reqscale - (j + 1 : ℕ)).toNat = (reqscale - j).toNat - 1 := by omega
    obtain ⟨hout, hcount, hleft⟩ := ih hnext hrest hplaced (j + 1)
    rw [hpoint] at hout
    rw [hrun, pointedDigits_succ]
    exact ⟨hout, by rw [hcount, hcalcprec]; omega, hleft.trans houtside⟩

end DigitLoop

end MatrixOdbc.Driver
