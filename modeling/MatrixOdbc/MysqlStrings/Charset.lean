import Mathlib.Data.List.Basic
import Mathlib.Algebra.Order.Ring.Int
import Mathlib.Tactic.Common

/-!
# Character sets

The two functions of a `CHARSET_INFO` that tell multi-byte characters apart, as
`mysql_strings` implements them for the character sets a client can use. A
structure `Charset` carries what the escaping code relies on: a character is
recognized by its own bytes, ASCII bytes begin none, and the quotes and the
backslash occur in a character only as the second of two bytes.
-/

namespace MatrixOdbc.MysqlStrings

/-- The codes of a failing conversion. -/
def MY_CS_ILSEQ : ℤ := 0
@[inherit_doc MY_CS_ILSEQ] def MY_CS_ILUNI : ℤ := 0
@[inherit_doc MY_CS_ILSEQ] def MY_CS_TOOSMALL : ℤ := -101
@[inherit_doc MY_CS_ILSEQ] def MY_CS_TOOSMALL2 : ℤ := -102
@[inherit_doc MY_CS_ILSEQ] def MY_CS_TOOSMALL3 : ℤ := -103
@[inherit_doc MY_CS_ILSEQ] def MY_CS_TOOSMALL4 : ℤ := -104

/-- `my_mb_wc_utf8_prototype`: the number of bytes of the first character, or an
error code, and its code point. -/
def myMbWcUtf8Prototype (supportMb4 : Bool) : List UInt8 → ℤ × ℕ
  | [] => (MY_CS_TOOSMALL, 0)
  | c :: s =>
    if c < 0x80 then (1, c.toNat)
    else if c < 0xe0 then
      if c < 0xc2 then (MY_CS_ILSEQ, 0)
      else
        match s with
        | s₁ :: _ =>
          if s₁.toNat &&& 0xc0 ≠ 0x80 then (MY_CS_ILSEQ, 0)
          else (2, ((c.toNat &&& 0x1f) <<< 6) + (s₁.toNat &&& 0x3f))
        | _ => (MY_CS_TOOSMALL2, 0)
    else if c < 0xf0 then
      match s with
      | s₁ :: s₂ :: _ =>
        if s₁.toNat &&& 0xc0 ≠ 0x80 ∨ s₂.toNat &&& 0xc0 ≠ 0x80 then (MY_CS_ILSEQ, 0)
        else
          let wc := ((c.toNat &&& 0x0f) <<< 12) + ((s₁.toNat &&& 0x3f) <<< 6) + (s₂.toNat &&& 0x3f)
          if wc < 0x800 ∨ (0xd800 ≤ wc ∧ wc ≤ 0xdfff) then (MY_CS_ILSEQ, wc) else (3, wc)
      | _ => (MY_CS_TOOSMALL3, 0)
    else if supportMb4 then
      match s with
      | s₁ :: s₂ :: s₃ :: _ =>
        if c.toNat &&& 0xf8 ≠ 0xf0 ∨ s₁.toNat &&& 0xc0 ≠ 0x80 ∨ s₂.toNat &&& 0xc0 ≠ 0x80 ∨
            s₃.toNat &&& 0xc0 ≠ 0x80 then (MY_CS_ILSEQ, 0)
        else
          let wc := ((c.toNat &&& 0x07) <<< 18) + ((s₁.toNat &&& 0x3f) <<< 12) +
            ((s₂.toNat &&& 0x3f) <<< 6) + (s₃.toNat &&& 0x3f)
          if wc < 0x10000 ∨ 0x10ffff < wc then (MY_CS_ILSEQ, wc) else (4, wc)
      | _ => (MY_CS_TOOSMALL4, 0)
    else (MY_CS_ILSEQ, 0)

/-- `my_mb_wc_utf8mb4`. -/
def myMbWcUtf8mb4 (s : List UInt8) : ℤ × ℕ := myMbWcUtf8Prototype true s

/-- The bytes that quoting treats specially: `'`, `\` and the backquote. -/
def isQuotingByte (c : UInt8) : Bool := c == 0x27 || c == 0x5c || c == 0x60

/-- A character set. `ismbchar` gets the bytes up to the end of the text and
returns the length of the multi-byte character they begin with, or 0;
`mbcharlen` gets an `uint`. -/
structure Charset where
  useMb : Bool
  ismbchar : List UInt8 → ℕ
  mbcharlen : ℕ → ℕ
  ismbchar_le : ∀ s, ismbchar s ≤ s.length
  ismbchar_take : ∀ s t, ismbchar s ≠ 0 → ismbchar (s.take (ismbchar s) ++ t) = ismbchar s
  ismbchar_ascii : ∀ c s, c < 0x80 → ismbchar (c :: s) = 0
  ismbchar_quoting : ∀ s, ∀ c ∈ s.take (ismbchar s), isQuotingByte c → ismbchar s = 2
  mbcharlen_ascii : ∀ c, c < 0x80 → mbcharlen c ≤ 1

/-- The 8-bit character sets; `ismbchar` is a null pointer there. -/
def charset8bit : Charset where
  useMb := false
  ismbchar _ := 0
  mbcharlen _ := 1
  ismbchar_le _ := Nat.zero_le _
  ismbchar_take _ _ h := absurd rfl h
  ismbchar_ascii _ _ _ := rfl
  ismbchar_quoting := by simp
  mbcharlen_ascii _ _ := le_rfl

/-- `ismbchar` of a character set with heads and tails. -/
def ismbcharDouble (head tail : UInt8 → Bool) : List UInt8 → ℕ
  | p₀ :: p₁ :: _ => if head p₀ && tail p₁ then 2 else 0
  | _ => 0

theorem ismbcharDouble_ne_zero {head tail : UInt8 → Bool} {s : List UInt8}
    (h : ismbcharDouble head tail s ≠ 0) :
    ∃ p₀ p₁ rest, s = p₀ :: p₁ :: rest ∧ (head p₀ && tail p₁) = true := by
  rcases s with - | ⟨p₀, - | ⟨p₁, rest⟩⟩
  · exact absurd rfl h
  · exact absurd rfl h
  · refine ⟨p₀, p₁, rest, rfl, ?_⟩
    by_contra hcode
    exact h (by simp [ismbcharDouble, hcode])

/-- The byte a value of type `uint` is cast to. -/
def uchar (c : ℕ) : UInt8 := UInt8.ofNat c

theorem uchar_ascii {c : ℕ} (h : c < 0x80) : uchar c < 0x80 := by
  rw [UInt8.lt_iff_toNat_lt, uchar, UInt8.toNat_ofNat']
  have h80 : (0x80 : UInt8).toNat = 0x80 := rfl
  omega

/-- A character set whose characters are a head and a tail. -/
def doubleByte (head tail : UInt8 → Bool) (hhead : ∀ c, c < 0x80 → head c = false) : Charset where
  useMb := true
  ismbchar := ismbcharDouble head tail
  mbcharlen c := if head (uchar c) then 2 else 1
  ismbchar_le s := by
    by_cases h : ismbcharDouble head tail s = 0
    · omega
    · obtain ⟨p₀, p₁, rest, rfl, hcode⟩ := ismbcharDouble_ne_zero h
      simp [ismbcharDouble, hcode]
  ismbchar_take s t h := by
    obtain ⟨p₀, p₁, rest, rfl, hcode⟩ := ismbcharDouble_ne_zero h
    simp [ismbcharDouble, hcode]
  ismbchar_ascii c s h := by
    cases s <;> simp [ismbcharDouble, hhead c h]
  ismbchar_quoting s c hc _ := by
    by_cases h : ismbcharDouble head tail s = 0
    · simp [h] at hc
    · obtain ⟨p₀, p₁, rest, rfl, hcode⟩ := ismbcharDouble_ne_zero h
      simp [ismbcharDouble, hcode]
  mbcharlen_ascii c h := by simp [hhead _ (uchar_ascii h)]

/-- The byte lies in a range. -/
def inRange (low high c : UInt8) : Bool := low ≤ c && c ≤ high

theorem inRange_ascii {low high c : UInt8} (hlow : 0x80 ≤ low) (h : c < 0x80) :
    inRange low high c = false := by
  have : ¬ low ≤ c := UInt8.not_le.mpr (UInt8.lt_of_lt_of_le h hlow)
  simp [inRange, this]

/-- Lead and tail bytes of `gbk`. -/
def isgbkhead (c : UInt8) : Bool := inRange 0x81 0xfe c
@[inherit_doc isgbkhead] def isgbktail (c : UInt8) : Bool := inRange 0x40 0x7e c || inRange 0x80 0xfe c
/-- `gbk`. -/
def gbk : Charset := doubleByte isgbkhead isgbktail fun _ => inRange_ascii (by decide)

/-- The bytes of `gb18030`. -/
def isMbOdd (c : UInt8) : Bool := inRange 0x81 0xfe c
@[inherit_doc isMbOdd] def isMbEven2 (c : UInt8) : Bool := inRange 0x40 0x7e c || inRange 0x80 0xfe c
@[inherit_doc isMbOdd] def isMbEven4 (c : UInt8) : Bool := inRange 0x30 0x39 c

/-- `my_ismbchar_gb18030`. -/
def ismbcharGb18030 : List UInt8 → ℕ
  | p₀ :: p₁ :: s =>
    if isMbOdd p₀ = false then 0
    else if isMbEven2 p₁ then 2
    else
      match s with
      | p₂ :: p₃ :: _ => if isMbEven4 p₁ && isMbOdd p₂ && isMbEven4 p₃ then 4 else 0
      | _ => 0
  | _ => 0

/-- `my_mbcharlen_gb18030` of a first byte, or of two bytes. -/
def mbcharlenGb18030 (c : ℕ) : ℕ :=
  if c ≤ 0xff then if isMbOdd (uchar c) then 0 else 1
  else if 0xffff < c ∨ isMbOdd (uchar (c / 0x100)) = false then 0
  else if isMbEven2 (uchar c) then 2
  else if isMbEven4 (uchar c) then 4
  else 0

/-- The shapes of a multi-byte character of `gb18030`. -/
theorem ismbcharGb18030_ne_zero {s : List UInt8} (h : ismbcharGb18030 s ≠ 0) :
    (∃ p₀ p₁ rest, s = p₀ :: p₁ :: rest ∧ isMbOdd p₀ = true ∧ isMbEven2 p₁ = true) ∨
    ∃ p₀ p₁ p₂ p₃ rest, s = p₀ :: p₁ :: p₂ :: p₃ :: rest ∧ isMbOdd p₀ = true ∧
      isMbEven2 p₁ = false ∧ isMbEven4 p₁ = true ∧ isMbOdd p₂ = true ∧ isMbEven4 p₃ = true := by
  rcases s with - | ⟨p₀, - | ⟨p₁, s⟩⟩
  · exact absurd rfl h
  · exact absurd rfl h
  · unfold ismbcharGb18030 at h
    dsimp only at h
    split_ifs at h with hodd heven
    · exact absurd rfl h
    · exact Or.inl ⟨p₀, p₁, s, rfl, by simpa using hodd, heven⟩
    · right
      rcases s with - | ⟨p₂, - | ⟨p₃, rest⟩⟩
      · exact absurd rfl h
      · exact absurd rfl h
      · have hcode : (isMbEven4 p₁ && isMbOdd p₂ && isMbEven4 p₃) = true := by
          by_contra hcode
          exact h (by simp [hcode])
        simp only [Bool.and_eq_true] at hcode
        exact ⟨p₀, p₁, p₂, p₃, rest, rfl, by simpa using hodd, by simpa using heven, hcode.1.1,
          hcode.1.2, hcode.2⟩

theorem inRange_quoting {low high c : UInt8} (h : inRange low high c = true)
    (h₁ : inRange low high 0x27 = false) (h₂ : inRange low high 0x5c = false)
    (h₃ : inRange low high 0x60 = false) : isQuotingByte c = false := by
  by_contra hc
  simp only [isQuotingByte, Bool.not_eq_false, Bool.or_eq_true, beq_iff_eq] at hc
  rcases hc with (rfl | rfl) | rfl <;> simp_all

/-- `gb18030`. -/
def gb18030 : Charset where
  useMb := true
  ismbchar := ismbcharGb18030
  mbcharlen := mbcharlenGb18030
  ismbchar_le s := by
    by_cases h : ismbcharGb18030 s = 0
    · omega
    · rcases ismbcharGb18030_ne_zero h with ⟨p₀, p₁, rest, rfl, hodd, heven⟩ |
        ⟨p₀, p₁, p₂, p₃, rest, rfl, hodd, h₂, h₄, hodd₂, heven₃⟩
      · simp [ismbcharGb18030, hodd, heven]
      · simp [ismbcharGb18030, hodd, h₂, h₄, hodd₂, heven₃]
  ismbchar_take s t h := by
    rcases ismbcharGb18030_ne_zero h with ⟨p₀, p₁, rest, rfl, hodd, heven⟩ |
      ⟨p₀, p₁, p₂, p₃, rest, rfl, hodd, h₂, h₄, hodd₂, heven₃⟩
    · simp [ismbcharGb18030, hodd, heven]
    · simp [ismbcharGb18030, hodd, h₂, h₄, hodd₂, heven₃]
  ismbchar_ascii c s h := by
    have hodd : isMbOdd c = false := inRange_ascii (by decide) h
    cases s <;> simp [ismbcharGb18030, hodd]
  ismbchar_quoting s c hc hquoting := by
    by_cases h : ismbcharGb18030 s = 0
    · simp [h] at hc
    · rcases ismbcharGb18030_ne_zero h with ⟨p₀, p₁, rest, rfl, hodd, heven⟩ |
        ⟨p₀, p₁, p₂, p₃, rest, rfl, hodd, h₂, h₄, hodd₂, heven₃⟩
      · simp [ismbcharGb18030, hodd, heven]
      · have hfour : ismbcharGb18030 (p₀ :: p₁ :: p₂ :: p₃ :: rest) = 4 := by
          simp [ismbcharGb18030, hodd, h₂, h₄, hodd₂, heven₃]
        rw [hfour] at hc
        simp only [List.take_succ_cons, List.take_zero, List.mem_cons, List.not_mem_nil,
          or_false] at hc
        have hq₀ := inRange_quoting hodd (by decide) (by decide) (by decide)
        have hq₁ := inRange_quoting h₄ (by decide) (by decide) (by decide)
        have hq₂ := inRange_quoting hodd₂ (by decide) (by decide) (by decide)
        have hq₃ := inRange_quoting heven₃ (by decide) (by decide) (by decide)
        rcases hc with rfl | rfl | rfl | rfl <;> simp_all
  mbcharlen_ascii c h := by
    have hodd : isMbOdd (uchar c) = false := inRange_ascii (by decide) (uchar_ascii h)
    simp [mbcharlenGb18030, show c ≤ 0xff by omega, hodd]

/-- `my_ismbchar_utf8` and `my_ismbchar_utf8mb4`. -/
def ismbcharUtf8 (supportMb4 : Bool) (s : List UInt8) : ℕ :=
  let res := (myMbWcUtf8Prototype supportMb4 s).1
  if 1 < res then res.natAbs else 0

/-- `my_mbcharlen_utf8` and `my_mbcharlen_utf8mb4`. -/
def mbcharlenUtf8 (supportMb4 : Bool) (c : ℕ) : ℕ :=
  if c < 0x80 then 1
  else if c < 0xc2 then 0
  else if c < 0xe0 then 2
  else if c < 0xf0 then 3
  else if supportMb4 = true ∧ c < 0xf8 then 4
  else 0

/-- The byte continues a character of `utf8`. -/
def IsContinuation (c : UInt8) : Prop := c.toNat &&& 0xc0 = 0x80

theorem IsContinuation.not_quoting {c : UInt8} (h : IsContinuation c) : isQuotingByte c = false := by
  by_contra hc
  simp only [isQuotingByte, Bool.not_eq_false, Bool.or_eq_true, beq_iff_eq] at hc
  unfold IsContinuation at h
  rcases hc with (rfl | rfl) | rfl <;> exact absurd h (by decide)

/-- The shape of a multi-byte character of `utf8`. -/
theorem ismbcharUtf8_ne_zero {supportMb4 : Bool} {s : List UInt8}
    (h : ismbcharUtf8 supportMb4 s ≠ 0) :
    ∃ c tail rest, s = c :: tail ++ rest ∧ ¬ c < 0x80 ∧ (∀ c' ∈ tail, IsContinuation c') ∧
      ∀ t, ismbcharUtf8 supportMb4 (c :: tail ++ t) = tail.length + 1 := by
  unfold ismbcharUtf8 at h
  rcases s with - | ⟨c, s⟩
  · exact absurd rfl h
  by_cases h₁ : c < 0x80
  · simp [myMbWcUtf8Prototype, h₁] at h
  by_cases h₂ : c < 0xe0
  · by_cases hmin : c < 0xc2
    · simp [myMbWcUtf8Prototype, h₁, h₂, hmin, MY_CS_ILSEQ] at h
    · rcases s with - | ⟨s₁, rest⟩
      · simp [myMbWcUtf8Prototype, h₁, h₂, hmin, MY_CS_TOOSMALL2] at h
      · by_cases hcont : s₁.toNat &&& 0xc0 = 0x80
        · refine ⟨c, [s₁], rest, rfl, h₁, by simpa [IsContinuation] using hcont, fun t => ?_⟩
          simp [ismbcharUtf8, myMbWcUtf8Prototype, h₁, h₂, hmin, hcont]
        · simp [myMbWcUtf8Prototype, h₁, h₂, hmin, hcont, MY_CS_ILSEQ] at h
  by_cases h₃ : c < 0xf0
  · rcases s with - | ⟨s₁, - | ⟨s₂, rest⟩⟩
    · simp [myMbWcUtf8Prototype, h₁, h₂, h₃, MY_CS_TOOSMALL3] at h
    · simp [myMbWcUtf8Prototype, h₁, h₂, h₃, MY_CS_TOOSMALL3] at h
    · simp only [myMbWcUtf8Prototype, h₁, h₂, h₃, if_true, if_false] at h
      split_ifs at h with hcont hpos hwc hpos hpos
      · simp [MY_CS_ILSEQ] at h
      · simp at h
      · simp [MY_CS_ILSEQ] at h
      · simp at h
      · obtain ⟨hcont₁, hcont₂⟩ := not_or.mp hcont
        refine ⟨c, [s₁, s₂], rest, rfl, h₁, ?_, fun t => ?_⟩
        · simpa [IsContinuation] using ⟨not_not.mp hcont₁, not_not.mp hcont₂⟩
        · simp only [ismbcharUtf8, List.cons_append, List.nil_append, myMbWcUtf8Prototype, h₁, h₂,
            h₃, if_true, if_false, hcont, hwc]
          rfl
      · simp at h
  · cases supportMb4 with
    | false => simp [myMbWcUtf8Prototype, h₁, h₂, h₃, MY_CS_ILSEQ] at h
    | true =>
      rcases s with - | ⟨s₁, - | ⟨s₂, - | ⟨s₃, rest⟩⟩⟩
      · simp [myMbWcUtf8Prototype, h₁, h₂, h₃, MY_CS_TOOSMALL4] at h
      · simp [myMbWcUtf8Prototype, h₁, h₂, h₃, MY_CS_TOOSMALL4] at h
      · simp [myMbWcUtf8Prototype, h₁, h₂, h₃, MY_CS_TOOSMALL4] at h
      · simp only [myMbWcUtf8Prototype, h₁, h₂, h₃, if_true, if_false] at h
        split_ifs at h with hcont hpos hwc hpos hpos
        · simp [MY_CS_ILSEQ] at h
        · simp at h
        · simp [MY_CS_ILSEQ] at h
        · simp at h
        · refine ⟨c, [s₁, s₂, s₃], rest, rfl, h₁, ?_, fun t => ?_⟩
          · simp only [not_or, not_not] at hcont
            simpa [IsContinuation] using ⟨hcont.2.1, hcont.2.2.1, hcont.2.2.2⟩
          · simp only [ismbcharUtf8, List.cons_append, List.nil_append, myMbWcUtf8Prototype, h₁, h₂,
              h₃, if_true, if_false, hcont, hwc]
            rfl
        · simp at h

/-- `utf8mb3` and `utf8mb4`. -/
def charsetUtf8 (supportMb4 : Bool) : Charset where
  useMb := true
  ismbchar := ismbcharUtf8 supportMb4
  mbcharlen := mbcharlenUtf8 supportMb4
  ismbchar_le s := by
    by_cases h : ismbcharUtf8 supportMb4 s = 0
    · omega
    · obtain ⟨c, tail, rest, rfl, -, -, hlen⟩ := ismbcharUtf8_ne_zero h
      rw [hlen]
      simp
  ismbchar_take s t h := by
    obtain ⟨c, tail, rest, rfl, -, -, hlen⟩ := ismbcharUtf8_ne_zero h
    rw [hlen, ← List.length_cons (a := c), List.take_left, hlen, List.length_cons]
  ismbchar_ascii c s h := by simp [ismbcharUtf8, myMbWcUtf8Prototype, h]
  ismbchar_quoting s c hc hquoting := by
    by_cases h : ismbcharUtf8 supportMb4 s = 0
    · simp [h] at hc
    · obtain ⟨c₀, tail, rest, rfl, hascii, htail, hlen⟩ := ismbcharUtf8_ne_zero h
      rw [hlen, ← List.length_cons (a := c₀), List.take_left] at hc
      rcases List.mem_cons.mp hc with rfl | hmem
      · simp only [isQuotingByte, Bool.or_eq_true, beq_iff_eq] at hquoting
        rcases hquoting with (rfl | rfl) | rfl <;> exact absurd (by decide) hascii
      · simp [(htail c hmem).not_quoting] at hquoting
  mbcharlen_ascii c h := by simp [mbcharlenUtf8, h]

end MatrixOdbc.MysqlStrings
