import Mathlib.Data.List.TakeDrop
import Mathlib.Tactic.Common

/-!
# Splitting a text into pieces

A variable-length code is given by its width function: how many places of a text
its first piece takes, or 0 if the text does not begin with one. A text is split into the
pieces at its front and a rest that does not begin with a piece.
-/

namespace Splitting

variable {α : Type*} {width : List α → ℕ} {xs : List α}

/-- Split off so many pieces at most. -/
def splitFrom (width : List α → ℕ) : ℕ → List α → List (List α) × List α
  | 0, xs => ([], xs)
  | n + 1, xs =>
    if width xs = 0 then ([], xs)
    else
      let later := splitFrom width n (xs.drop (width xs))
      (xs.take (width xs) :: later.1, later.2)

/-- The pieces at the front and the rest. -/
def split (width : List α → ℕ) (xs : List α) : List (List α) × List α :=
  splitFrom width xs.length xs

/-- A piece lies in the text. -/
def Fits (width : List α → ℕ) : Prop := ∀ xs, width xs ≤ xs.length

/-- What is split does not depend on the bound if there are enough pieces. -/
theorem splitFrom_eq (hfits : Fits width) {n m : ℕ} (hn : xs.length ≤ n) (hm : xs.length ≤ m) :
    splitFrom width n xs = splitFrom width m xs := by
  induction n generalizing xs m with
  | zero =>
    have hwidth : width xs = 0 := by
      have := hfits xs
      omega
    cases m with
    | zero => rfl
    | succ m => rw [splitFrom, splitFrom, if_pos hwidth]
  | succ n ih =>
    by_cases hwidth : width xs = 0
    · cases m with
      | zero => rw [splitFrom, splitFrom, if_pos hwidth]
      | succ m => rw [splitFrom, splitFrom, if_pos hwidth, if_pos hwidth]
    · have := hfits xs
      obtain ⟨m, rfl⟩ : ∃ k, m = k + 1 := ⟨m - 1, by omega⟩
      have hlater : (xs.drop (width xs)).length ≤ n ∧ (xs.drop (width xs)).length ≤ m := by
        rw [List.length_drop]
        omega
      rw [splitFrom, splitFrom, if_neg hwidth, if_neg hwidth, ih hlater.1 hlater.2]

/-- A text that does not begin with a piece is all rest. -/
theorem split_of_zero (h : width xs = 0) : split width xs = ([], xs) := by
  rw [split]
  cases xs.length with
  | zero => rfl
  | succ n => rw [splitFrom, if_pos h]

/-- The first piece is split off. -/
theorem split_of_pos (hfits : Fits width) (h : 0 < width xs) :
    split width xs = (xs.take (width xs) :: (split width (xs.drop (width xs))).1,
      (split width (xs.drop (width xs))).2) := by
  have := hfits xs
  obtain ⟨n, hn⟩ : ∃ n, xs.length = n + 1 := ⟨xs.length - 1, by omega⟩
  have hlater : splitFrom width n (xs.drop (width xs)) = split width (xs.drop (width xs)) := by
    apply splitFrom_eq hfits
    · rw [List.length_drop]
      omega
    · exact Nat.le_refl _
  rw [split, hn, splitFrom, if_neg (Nat.ne_of_gt h), hlater]

/-- The induction rule: what holds of a text that is all rest, and is kept when a piece is put
in front, holds of every text. -/
theorem induction_on {motive : List α → Prop} (hfits : Fits width)
    (rest : ∀ xs, width xs = 0 → motive xs)
    (piece : ∀ xs, 0 < width xs → motive (xs.drop (width xs)) → motive xs) (xs : List α) :
    motive xs := by
  generalize hn : xs.length = n
  induction n using Nat.strongRecOn generalizing xs with
  | _ n ih =>
    rcases Nat.eq_zero_or_pos (width xs) with hzero | hpos
    · exact rest xs hzero
    · have := hfits xs
      have hlt : (xs.drop (width xs)).length < n := by
        rw [List.length_drop]
        omega
      exact piece xs hpos (ih _ hlt _ rfl)

/-- The text is a piece by itself, whatever follows. -/
def IsPiece (width : List α → ℕ) (q : List α) : Prop :=
  0 < q.length ∧ ∀ ys, width (q ++ ys) = q.length

/-- A text of pieces is split into them. -/
theorem split_flatten (hfits : Fits width) {pieces : List (List α)}
    (hpieces : ∀ q ∈ pieces, IsPiece width q) (xs : List α) :
    split width (pieces.flatten ++ xs) =
      (pieces ++ (split width xs).1, (split width xs).2) := by
  induction pieces with
  | nil => rfl
  | cons q pieces ih =>
    obtain ⟨hpos, hwidth⟩ := hpieces q List.mem_cons_self
    have hlater := ih fun q hq => hpieces q (List.mem_cons_of_mem _ hq)
    rw [List.flatten_cons, List.append_assoc,
      split_of_pos hfits (by rw [hwidth]; exact hpos), hwidth, List.take_left, List.drop_left,
      hlater]
    rfl

end Splitting
