import Mathlib.Data.List.TakeWhile
import MatrixOdbc.Util.Options

/-!
# Comparing wide strings

When `sqlwcharcasecmp` takes two strings for the same. It moves every unit from `a` on down by
32, so the six units from `[` to the backquote are mixed up with the six behind `z`. Everything
else is told apart as the case of ASCII letters asks for.
-/

namespace MatrixOdbc.Util

variable {c d : SQLWCHAR} {s s₁ s₂ : List SQLWCHAR}

/-- The string at a pointer: the units in front of the terminator. -/
def wideText (wstr : List SQLWCHAR) : SQLWSTRING := wstr.takeWhile (· ≠ 0)

/-- One of `[`, `\`, `]`, `^`, `_` and the backquote, and the unit 32 behind it. -/
def BracketPair (c d : SQLWCHAR) : Prop :=
  0x5b ≤ c.toNat ∧ c.toNat ≤ 0x60 ∧ d.toNat = c.toNat + 0x20

instance (c d : SQLWCHAR) : Decidable (BracketPair c d) := inferInstanceAs (Decidable (_ ∧ _))

/-- Two units that are mixed up. -/
def MixedUp (c d : SQLWCHAR) : Prop := BracketPair c d ∨ BracketPair d c

instance (c d : SQLWCHAR) : Decidable (MixedUp c d) := inferInstanceAs (Decidable (_ ∨ _))

/-- Strings that differ, but for the case of letters, in units that are mixed up only. -/
def Confused (s₁ s₂ : SQLWSTRING) : Prop :=
  List.Forall₂ (fun c d => toupper c = toupper d ∨ MixedUp c d) s₁ s₂ ∧
    ∃ (i : ℕ) (c d : SQLWCHAR), s₁[i]? = some c ∧ s₂[i]? = some d ∧ MixedUp c d

theorem toNat_capitalize (c : SQLWCHAR) :
    (capitalize c).toNat = if 0x61 ≤ c.toNat then c.toNat - 0x20 else c.toNat := by
  have ha : (wide 'a').toNat = 0x61 := rfl
  have hshift : (wide 'a' - wide 'A').toNat = 0x20 := rfl
  rw [capitalize]
  by_cases hlower : wide 'a' ≤ c
  · have hle := UInt16.le_iff_toNat_le.mp hlower
    rw [if_pos hlower, if_pos (by omega),
      UInt16.toNat_sub_of_le _ _ (UInt16.le_iff_toNat_le.mpr (by omega)), hshift]
  · have hlt := mt UInt16.le_iff_toNat_le.mpr hlower
    rw [if_neg hlower, if_neg (by omega)]

theorem toNat_toupper (c : SQLWCHAR) : (toupper c).toNat =
    if 0x61 ≤ c.toNat ∧ c.toNat ≤ 0x7a then c.toNat - 0x20 else c.toNat := by
  have ha : (wide 'a').toNat = 0x61 := rfl
  have hz : (wide 'z').toNat = 0x7a := rfl
  have hshift : (wide 'a' - wide 'A').toNat = 0x20 := rfl
  rw [toupper]
  by_cases hlower : wide 'a' ≤ c ∧ c ≤ wide 'z'
  · have hlow := UInt16.le_iff_toNat_le.mp hlower.1
    have hhigh := UInt16.le_iff_toNat_le.mp hlower.2
    rw [if_pos hlower, if_pos ⟨by omega, by omega⟩,
      UInt16.toNat_sub_of_le _ _ (UInt16.le_iff_toNat_le.mpr (by omega)), hshift]
  · have hnot : ¬ (0x61 ≤ c.toNat ∧ c.toNat ≤ 0x7a) := fun h =>
      hlower ⟨UInt16.le_iff_toNat_le.mpr h.1, UInt16.le_iff_toNat_le.mpr h.2⟩
    rw [if_neg hlower, if_neg hnot]

/-- The folding brings the same letters together, and the units that are mixed up. -/
theorem capitalize_eq_iff : capitalize c = capitalize d ↔ toupper c = toupper d ∨ MixedUp c d := by
  rw [← UInt16.toNat_inj, ← UInt16.toNat_inj, toNat_capitalize, toNat_capitalize, toNat_toupper,
    toNat_toupper, MixedUp, BracketPair, BracketPair]
  constructor
  · intro h
    split_ifs at h ⊢ <;> omega
  · rintro (h | h)
    · split_ifs at h ⊢ <;> omega
    · split_ifs <;> omega

/-- What is mixed up is not the same letter. -/
theorem MixedUp.toupper_ne (h : MixedUp c d) : toupper c ≠ toupper d := by
  rw [Ne, ← UInt16.toNat_inj, toNat_toupper, toNat_toupper]
  rw [MixedUp, BracketPair, BracketPair] at h
  split_ifs <;> omega

@[simp] theorem wideText_nil : wideText [] = [] := rfl

theorem wideText_cons_zero : wideText (0 :: s) = [] := rfl

theorem wideText_cons (h : c ≠ 0) : wideText (c :: s) = c :: wideText s :=
  List.takeWhile_cons_of_pos (by simpa using h)

theorem wideText_eq_nil_iff : wideText s = [] ↔ charAt s 0 = 0 := by
  cases s with
  | nil => simp
  | cons c s =>
    by_cases hc : c = 0
    · simp [hc, wideText_cons_zero]
    · simp [hc, wideText_cons hc]

/-- The comparison is that of the folded strings. -/
theorem sqlwcharcasecmp_eq_zero_iff : sqlwcharcasecmp s₁ s₂ = 0 ↔
    (wideText s₁).map capitalize = (wideText s₂).map capitalize := by
  have hend : ∀ s₁ s₂ : List SQLWCHAR, wideText s₁ = [] ∨ wideText s₂ = [] →
      (charAt s₁ 0 = charAt s₂ 0 ↔
        (wideText s₁).map capitalize = (wideText s₂).map capitalize) := by
    rintro s₁ s₂ (h | h)
    · rw [h, List.map_nil, eq_comm (a := []), List.map_eq_nil_iff, wideText_eq_nil_iff,
        wideText_eq_nil_iff.mp h, eq_comm]
    · rw [h, List.map_nil, List.map_eq_nil_iff, wideText_eq_nil_iff, wideText_eq_nil_iff.mp h]
  induction s₁ generalizing s₂ with
  | nil =>
    rw [← hend [] s₂ (Or.inl rfl)]
    simp [sqlwcharcasecmp]
  | cons c₁ s₁ ih =>
    cases s₂ with
    | nil =>
      rw [← hend (c₁ :: s₁) [] (Or.inr rfl)]
      simp [sqlwcharcasecmp]
    | cons c₂ s₂ =>
      by_cases hnul : c₁ = 0 ∨ c₂ = 0
      · have hnil : wideText (c₁ :: s₁) = [] ∨ wideText (c₂ :: s₂) = [] :=
          hnul.imp (wideText_eq_nil_iff.mpr ·) (wideText_eq_nil_iff.mpr ·)
        rw [← hend _ _ hnil, sqlwcharcasecmp, if_pos hnul, charAt_cons_zero, charAt_cons_zero]
        split_ifs with heq
        · exact iff_of_true rfl heq
        · exact iff_of_false (by simp) heq
      · obtain ⟨hc₁, hc₂⟩ := not_or.mp hnul
        have hbehind : sqlwcharcasecmp s₁ s₂ = 0 ↔
            (wideText s₁).map capitalize = (wideText s₂).map capitalize := ih
        rw [sqlwcharcasecmp, if_neg hnul, wideText_cons hc₁, wideText_cons hc₂, List.map_cons,
          List.map_cons, List.cons.injEq, ← hbehind]
        split_ifs with hne
        · exact iff_of_false (by simp) fun h => hne h.1
        · exact (and_iff_right (not_not.mp hne)).symm

/-- To be taken for the same is an equivalence relation. -/
theorem sqlwcharcasecmp_equivalence :
    Equivalence fun s₁ s₂ : List SQLWCHAR => sqlwcharcasecmp s₁ s₂ = 0 := by
  simp only [sqlwcharcasecmp_eq_zero_iff]
  exact (Setoid.ker fun s : List SQLWCHAR => (wideText s).map capitalize).iseqv

/-- Folded strings are the same if they are alike unit by unit. -/
theorem map_eq_map_iff_forall₂ (f : SQLWCHAR → SQLWCHAR) :
    s₁.map f = s₂.map f ↔ List.Forall₂ (fun c d => f c = f d) s₁ s₂ := by
  rw [← List.forall₂_eq_eq_eq, List.forall₂_map_left_iff, List.forall₂_map_right_iff]

/-- Strings that are the same to the comparison are the same but for the case of letters, or
confused. -/
theorem sqlwcharcasecmp_eq_zero_iff_or : sqlwcharcasecmp s₁ s₂ = 0 ↔
    (wideText s₁).map toupper = (wideText s₂).map toupper ∨
      Confused (wideText s₁) (wideText s₂) := by
  rw [sqlwcharcasecmp_eq_zero_iff, map_eq_map_iff_forall₂, map_eq_map_iff_forall₂, Confused]
  simp only [capitalize_eq_iff]
  generalize wideText s₁ = t₁
  generalize wideText s₂ = t₂
  constructor
  · intro h
    by_cases hmixed : ∃ (i : ℕ) (c d : SQLWCHAR), t₁[i]? = some c ∧ t₂[i]? = some d ∧ MixedUp c d
    · exact Or.inr ⟨h, hmixed⟩
    · left
      induction h with
      | nil => exact .nil
      | @cons c d t₁ t₂ hhere _ ih =>
        refine .cons (hhere.resolve_right fun hcd => hmixed ⟨0, c, d, rfl, rfl, hcd⟩) (ih ?_)
        rintro ⟨i, c', d', hc, hd, hcd⟩
        exact hmixed ⟨i + 1, c', d', hc, hd, hcd⟩
  · rintro (h | h)
    · exact h.imp fun _ _ => Or.inl
    · exact h.1

/-- Confused strings are not the same but for the case of letters. -/
theorem Confused.map_toupper_ne (h : Confused s₁ s₂) : s₁.map toupper ≠ s₂.map toupper := by
  obtain ⟨-, i, c, d, hc, hd, hmixed⟩ := h
  intro heq
  have hi := congrArg (·[i]?) heq
  simp only [List.getElem?_map, hc, hd, Option.map_some, Option.some_inj] at hi
  exact hmixed.toupper_ne hi

/-- The comparison is an equivalence relation, and it tells two strings apart as the case of ASCII
letters asks for exactly if they are not confused. -/
theorem sqlwcharcasecmp_faithful_iff (s₁ s₂ : List SQLWCHAR) :
    (Equivalence fun s₁ s₂ : List SQLWCHAR => sqlwcharcasecmp s₁ s₂ = 0) ∧
      ((sqlwcharcasecmp s₁ s₂ = 0 ↔
          (wideText s₁).map toupper = (wideText s₂).map toupper) ↔
        ¬ Confused (wideText s₁) (wideText s₂)) := by
  refine ⟨sqlwcharcasecmp_equivalence, ?_⟩
  rw [sqlwcharcasecmp_eq_zero_iff_or]
  constructor
  · intro h hconfused
    exact hconfused.map_toupper_ne (h.mp (Or.inr hconfused))
  · intro h
    exact or_iff_left h

/-- The opening bracket and the opening brace are the same to the comparison. -/
theorem sqlwcharcasecmp_bracket : sqlwcharcasecmp [wide '['] [wide '{'] = 0 ∧
    (wideText [wide '[']).map toupper ≠ (wideText [wide '{']).map toupper := by
  decide

end MatrixOdbc.Util
