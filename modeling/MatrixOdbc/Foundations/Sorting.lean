import Mathlib.Data.Int.Order.Basic
import Mathlib.Data.List.Basic
import Mathlib.Tactic.Common

/-!
# Sorting with a comparison

A sorting function of a standard library takes a comparison that is a strict weak order. It
returns the elements in an order in which none is less than one in front of it. Which of the
elements that are not less than each other comes first is left open. A comparison is often one by
several keys: the first one that differs decides.
-/

namespace Sorting

variable {α β : Type*}

/-- Neither of two elements is less than the other, and this goes on over a third one. -/
structure StrictWeak (less : α → α → Bool) : Prop where
  asymm : ∀ a b, less a b = true → less b a = false
  trans_not : ∀ a b c, less b a = false → less c b = false → less c a = false

/-- A sorting function. -/
structure SortFunction (α : Type*) where
  sort : (α → α → Bool) → List α → List α
  perm : ∀ less, StrictWeak less → ∀ xs, (sort less xs).Perm xs
  sorted : ∀ less, StrictWeak less → ∀ xs, (sort less xs).Pairwise fun a b => less b a = false

variable {less : α → α → Bool}

/-- Merging sorted halves. -/
def merged (less : α → α → Bool) (xs : List α) : List α := xs.mergeSort fun a b => !less b a

theorem perm_merged (less : α → α → Bool) (_ : StrictWeak less) (xs : List α) :
    (merged less xs).Perm xs :=
  List.mergeSort_perm xs _

theorem sorted_merged (less : α → α → Bool) (h : StrictWeak less) (xs : List α) :
    (merged less xs).Pairwise fun a b => less b a = false := by
  have htrans : ∀ a b c, (!less b a) = true → (!less c b) = true → (!less c a) = true := by
    intro a b c hab hbc
    rw [Bool.not_eq_true'] at hab hbc ⊢
    exact h.trans_not a b c hab hbc
  have htotal : ∀ a b, (!less b a || !less a b) = true := by
    intro a b
    cases hba : less b a with
    | false => rfl
    | true => rw [h.asymm b a hba]; rfl
  have hsorted := @List.pairwise_mergeSort α (fun a b => !less b a) htrans htotal xs
  exact hsorted.imp fun hle => Bool.not_eq_true' _ |>.mp hle

/-- Merging sorted halves is a sorting function. -/
def mergeSort (α : Type*) : SortFunction α := ⟨merged, perm_merged, sorted_merged⟩

/-- The sign of a comparison: swapping the elements turns it round, and not above goes on. -/
structure Compares (cmp : α → α → ℤ) : Prop where
  neg : ∀ a b, cmp b a = -cmp a b
  trans : ∀ a b c, cmp a b ≤ 0 → cmp b c ≤ 0 → cmp a c ≤ 0

namespace Compares

variable {cmp cmp' : α → α → ℤ}

/-- Numbers are compared by their difference. -/
theorem sub : Compares fun a b : ℤ => a - b :=
  ⟨fun _ _ => by omega, fun _ _ _ hab hbc => by omega⟩

/-- A key is compared. -/
theorem comap (h : Compares cmp) (key : β → α) : Compares fun a b => cmp (key a) (key b) :=
  ⟨fun _ _ => h.neg _ _, fun _ _ _ => h.trans _ _ _⟩

/-- Nothing but equal ones is between equal elements. -/
theorem eq_zero (h : Compares cmp) {a b c : α} (hab : cmp a b ≤ 0) (hbc : cmp b c ≤ 0)
    (hac : cmp a c = 0) : cmp a b = 0 ∧ cmp b c = 0 := by
  have hca := h.neg a c
  have hba := h.trans b c a hbc (by omega)
  have hcb := h.trans c a b (by omega) hab
  have hab' := h.neg a b
  have hbc' := h.neg b c
  exact ⟨by omega, by omega⟩

/-- Where one comparison does not tell, another one does. -/
theorem lex (h : Compares cmp) (h' : Compares cmp') :
    Compares fun a b => if cmp a b ≠ 0 then cmp a b else cmp' a b := by
  constructor
  · intro a b
    have hneg := h.neg a b
    have hneg' := h'.neg a b
    split_ifs <;> omega
  · intro a b c hab hbc
    have hfirst {x y : α} (hxy : (if cmp x y ≠ 0 then cmp x y else cmp' x y) ≤ 0) :
        cmp x y ≤ 0 ∧ (cmp x y = 0 → cmp' x y ≤ 0) := by
      split_ifs at hxy with hne
      · exact ⟨hxy, fun hzero => absurd hzero hne⟩
      · exact ⟨Int.le_of_eq (not_not.mp hne), fun _ => hxy⟩
    obtain ⟨hab, hab'⟩ := hfirst hab
    obtain ⟨hbc, hbc'⟩ := hfirst hbc
    have hac := h.trans a b c hab hbc
    split_ifs with hne
    · exact hac
    · obtain ⟨hzero, hzero'⟩ := h.eq_zero hab hbc (not_not.mp hne)
      exact h'.trans a b c (hab' hzero) (hbc' hzero')

/-- It is a strict weak order. -/
theorem strictWeak (h : Compares cmp) : StrictWeak fun a b => decide (cmp a b < 0) := by
  constructor
  · intro a b hab
    have hneg := h.neg a b
    rw [decide_eq_true_eq] at hab
    exact decide_eq_false (by omega)
  · intro a b c hab hbc
    rw [decide_eq_false_iff_not] at hab hbc
    have hneg := h.neg a b
    have hneg' := h.neg b c
    have hac := h.trans a b c (by omega) (by omega)
    have hneg'' := h.neg a c
    exact decide_eq_false (by omega)

end Compares

end Sorting
