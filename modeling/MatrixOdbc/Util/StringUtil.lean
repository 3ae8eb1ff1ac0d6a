import Mathlib.Data.Nat.Digits.Lemmas
import Mathlib.Tactic.Ring
import MatrixOdbc.Foundations.Doubling

/-!
# Wide-string helpers

The `SQLWCHAR` functions of `util/stringutil.cc` that the data-source code
calls. A pointer into a wide string is the list of the units from there on. A
read behind the last listed unit gives the terminator, so a string may be
listed with or without it, and a NUL-separated list is one list with NULs in it.
-/

namespace MatrixOdbc.Util

/-- A UTF-16 code unit, as the driver is built on Unix (`unsigned short`). -/
abbrev SQLWCHAR := UInt16

/-- `SQLWSTRING`. -/
abbrev SQLWSTRING := List SQLWCHAR

/-- The wide form of a character constant. -/
def wide (c : Char) : SQLWCHAR := UInt16.ofNat c.toNat

/-- The unit `wstr[i]`; everything behind the listed units reads as NUL. -/
def charAt (wstr : List SQLWCHAR) (i : ℕ) : SQLWCHAR := wstr.getD i 0

@[simp] theorem charAt_nil (i : ℕ) : charAt [] i = 0 := by simp [charAt]

@[simp] theorem charAt_cons_zero (c : SQLWCHAR) (wstr : List SQLWCHAR) :
    charAt (c :: wstr) 0 = c := rfl

@[simp] theorem charAt_cons_succ (c : SQLWCHAR) (wstr : List SQLWCHAR) (i : ℕ) :
    charAt (c :: wstr) (i + 1) = charAt wstr i := by simp [charAt]

theorem charAt_drop (wstr : List SQLWCHAR) (n i : ℕ) :
    charAt (wstr.drop n) i = charAt wstr (n + i) := by
  simp [charAt, List.getD_eq_getElem?_getD, List.getElem?_drop]

/-- `sqlwcharchr`: the offset of the first `wchr` before the terminator. -/
def sqlwcharchr : List SQLWCHAR → SQLWCHAR → Option ℕ
  | [], _ => none
  | c :: wstr, wchr =>
    if c = 0 then none else if c = wchr then some 0 else (sqlwcharchr wstr wchr).map (· + 1)

/-- `sqlwcharlen`: the number of units before the terminator. -/
def sqlwcharlen : List SQLWCHAR → ℕ
  | [] => 0
  | c :: wstr => if c = 0 then 0 else sqlwcharlen wstr + 1

/-- The case folding inside `sqlwcharcasecmp`: every unit from `a` on is moved
down, not only the letters. -/
def capitalize (c : SQLWCHAR) : SQLWCHAR :=
  if wide 'a' ≤ c then c - (wide 'a' - wide 'A') else c

/-- `sqlwcharcasecmp`: 0 if the strings are the same, 1 if they are not. -/
def sqlwcharcasecmp : List SQLWCHAR → List SQLWCHAR → ℕ
  | c₁ :: s₁, c₂ :: s₂ =>
    if c₁ = 0 ∨ c₂ = 0 then if c₁ = c₂ then 0 else 1
    else if capitalize c₁ ≠ capitalize c₂ then 1 else sqlwcharcasecmp s₁ s₂
  | s₁, s₂ => if charAt s₁ 0 = charAt s₂ 0 then 0 else 1

/-- The number of values of an `unsigned long`. -/
def ulongSize : ℕ := 2 ^ 64

/-- The loop of `sqlwchartoul`, with the value read so far. -/
def sqlwchartoulFrom (res : ℕ) : List SQLWCHAR → ℕ
  | [] => res
  | c :: wstr =>
    if c < wide '0' ∨ wide '9' < c then res
    else sqlwchartoulFrom ((res * 10 + (c.toNat - (wide '0').toNat)) % ulongSize) wstr

/-- `sqlwchartoul`: the value of the leading decimal digits, modulo the size of
an `unsigned long`. The terminator is not a digit, so it needs no test. -/
def sqlwchartoul (wstr : List SQLWCHAR) : ℕ := sqlwchartoulFrom 0 wstr

/-- The wide form of a decimal digit. -/
def wideDigit (d : ℕ) : SQLWCHAR := UInt16.ofNat ((wide '0').toNat + d)

/-- `sqlwcharfromul`: the decimal digits of `v`. There are none for zero. -/
def sqlwcharfromul (v : ℕ) : SQLWSTRING := (Nat.digits 10 v).reverse.map wideDigit

/-- `escape_brackets`: double every `}`, with or without enclosing brackets. -/
def escapeBrackets (val : SQLWSTRING) (addStartEnd : Bool) : SQLWSTRING :=
  if !addStartEnd && (val.isEmpty || !val.contains (wide '}')) then val
  else if addStartEnd then
    wide '{' :: (Doubling.double (wide '}') val ++ [wide '}'])
  else Doubling.double (wide '}') val

/-- Without the enclosing brackets the early exit makes no difference. -/
theorem escapeBrackets_false (val : SQLWSTRING) :
    escapeBrackets val false = Doubling.double (wide '}') val := by
  by_cases hmem : wide '}' ∈ val
  · have hne : val ≠ [] := List.ne_nil_of_mem hmem
    simp [escapeBrackets, hmem, hne]
  · rw [Doubling.double_eq_self hmem]
    simp [escapeBrackets, hmem]

theorem sqlwcharlen_pos {wstr : List SQLWCHAR} (h : charAt wstr 0 ≠ 0) : 0 < sqlwcharlen wstr := by
  cases wstr with
  | nil => simp at h
  | cons c wstr =>
    have hc : c ≠ 0 := by simpa using h
    simp [sqlwcharlen, hc]

/-- A unit that occurs is found behind the text in front of it. -/
theorem sqlwcharchr_append {pre : List SQLWCHAR} (rest : List SQLWCHAR) {wchr : SQLWCHAR}
    (hwchr : wchr ≠ 0) (hnul : 0 ∉ pre) (hpre : wchr ∉ pre) : sqlwcharchr (pre ++ wchr :: rest) wchr = some pre.length := by
  induction pre with
  | nil => simp [sqlwcharchr, hwchr]
  | cons c pre ih =>
    obtain ⟨hc, hpre⟩ := not_or.mp (List.mem_cons.not.mp hpre)
    obtain ⟨hc₀, hnul⟩ := not_or.mp (List.mem_cons.not.mp hnul)
    rw [List.cons_append, sqlwcharchr, if_neg (Ne.symm hc₀), if_neg (Ne.symm hc), ih hnul hpre]
    simp

/-- What `sqlwcharchr` finds is the requested unit. -/
theorem charAt_of_sqlwcharchr {wstr : List SQLWCHAR} {wchr : SQLWCHAR} {k : ℕ}
    (h : sqlwcharchr wstr wchr = some k) : charAt wstr k = wchr ∧ wchr ≠ 0 := by
  induction wstr generalizing k with
  | nil => simp [sqlwcharchr] at h
  | cons c wstr ih =>
    rw [sqlwcharchr] at h
    split_ifs at h with hnul hc
    · cases Option.some.inj h
      subst hc
      exact ⟨charAt_cons_zero _ _, hnul⟩
    · obtain ⟨k', hk', rfl⟩ := Option.map_eq_some_iff.mp h
      simpa using ih hk'

theorem wideDigit_toNat {d : ℕ} (hd : d < 10) : (wideDigit d).toNat = 48 + d := by
  interval_cases d <;> rfl

theorem wideDigit_isDigit {d : ℕ} (hd : d < 10) :
    ¬ (wideDigit d < wide '0' ∨ wide '9' < wideDigit d) := by
  interval_cases d <;> decide

/-- The loop reads a run of digits as the number they spell. -/
theorem sqlwchartoulFrom_digits {digits : List ℕ} {rest : List SQLWCHAR} (res : ℕ)
    (hdigits : ∀ d ∈ digits, d < 10)
    (hrest : charAt rest 0 < wide '0' ∨ wide '9' < charAt rest 0)
    (hbound : digits.foldl (fun n d => n * 10 + d) res < ulongSize) :
    sqlwchartoulFrom res (digits.map wideDigit ++ rest) =
      digits.foldl (fun n d => n * 10 + d) res := by
  induction digits generalizing res with
  | nil =>
    cases rest with
    | nil => rfl
    | cons c rest =>
      rw [List.map_nil, List.nil_append, sqlwchartoulFrom, if_pos (by simpa using hrest)]
      rfl
  | cons d digits ih =>
    have hd : d < 10 := hdigits d (by simp)
    have hle : res * 10 + d ≤ digits.foldl (fun n d => n * 10 + d) (res * 10 + d) := by
      generalize res * 10 + d = start
      clear ih hbound hdigits
      induction digits generalizing start with
      | nil => simp
      | cons d digits ih =>
        have := ih (start * 10 + d)
        simp only [List.foldl_cons]
        omega
    rw [List.foldl_cons] at hbound ⊢
    rw [List.map_cons, List.cons_append, sqlwchartoulFrom, if_neg (wideDigit_isDigit hd),
      wideDigit_toNat hd]
    have hzero : (wide '0').toNat = 48 := rfl
    rw [hzero, Nat.add_sub_cancel_left, Nat.mod_eq_of_lt (by omega)]
    exact ih _ (fun d' hd' => hdigits d' (by simp [hd'])) hbound

/-- Reading back a printed number gives the number. -/
theorem sqlwchartoul_sqlwcharfromul {v : ℕ} {rest : List SQLWCHAR} (hv : v < ulongSize)
    (hrest : charAt rest 0 < wide '0' ∨ wide '9' < charAt rest 0) :
    sqlwchartoul (sqlwcharfromul v ++ rest) = v := by
  have hfold : (Nat.digits 10 v).reverse.foldl (fun n d => n * 10 + d) 0 = v := by
    rw [List.foldl_reverse]
    conv_rhs => rw [← Nat.ofDigits_digits 10 v, Nat.ofDigits_eq_foldr]
    congr 1
    funext d n
    simp [Nat.mul_comm, Nat.add_comm]
  have hread := sqlwchartoulFrom_digits 0
    (fun d hd => Nat.digits_lt_base (by decide) (List.mem_reverse.mp hd)) hrest (by rwa [hfold])
  rwa [hfold] at hread

end MatrixOdbc.Util
