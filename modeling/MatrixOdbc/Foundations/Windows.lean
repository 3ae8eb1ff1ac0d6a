import Mathlib.Algebra.Order.Ring.Int
import Mathlib.Tactic.Common

/-!
# Reading an interval in windows

The places from `start` on are taken in pieces of one size. If there is a bound on their
number the last piece is shorter, and behind it nothing is left. A bound of zero stands
for none.
-/

namespace Windows

/-- The windows that are asked for one after the other: a first place and a number of
places, or nothing. -/
abbrev Requests : Type := ℕ → Option (ℕ × ℕ)

/-- How many places the first `k` requests ask for. -/
def covered (requests : Requests) : ℕ → ℕ
  | 0 => 0
  | k + 1 => covered requests k + ((requests k).map Prod.snd).getD 0

/-- The first `m` requests tile the interval: they stand one behind the other from `start`
on, do not overlap, keep inside the bound, and there is none exactly when the whole
interval has been asked for. -/
structure Tiles (start total : ℕ) (requests : Requests) (m : ℕ) : Prop where
  contiguous : ∀ k < m, ∀ offset count, requests k = some (offset, count) →
    offset = start + covered requests k
  disjoint : ∀ i j, i < j → j < m → ∀ offset count offset' count',
    requests i = some (offset, count) → requests j = some (offset', count') →
      offset + count ≤ offset'
  nonempty : 0 < total → ∀ k < m, ∀ offset count, requests k = some (offset, count) → 0 < count
  inside : 0 < total → ∀ k < m, ∀ offset count, requests k = some (offset, count) →
    offset + count ≤ start + total
  exhausted : ∀ k < m, requests k = none ↔ 0 < total ∧ covered requests k = total

/-- The pieces of one size. -/
def window (start total size : ℕ) : Requests := fun k =>
  if 0 < total ∧ total ≤ k * size then none
  else some (start + k * size, if 0 < total then min size (total - k * size) else size)

variable {start total size : ℕ}

/-- The places up to a piece. -/
theorem covered_window (k : ℕ) :
    covered (window start total size) k = if 0 < total then min total (k * size) else k * size := by
  induction k with
  | zero => simp [covered]
  | succ k ih =>
    rw [covered, ih, window, Nat.succ_mul]
    by_cases htotal : 0 < total
    · by_cases hend : total ≤ k * size
      · simp only [htotal, hend, and_self, if_true, Option.map_none, Option.getD_none]
        omega
      · simp only [htotal, hend, and_false, if_true, if_false, Option.map_some, Option.getD_some]
        omega
    · simp [htotal]

/-- A piece, if there is one, begins where the pieces before it end. -/
theorem window_eq_some {k offset count : ℕ}
    (h : window start total size k = some (offset, count)) :
    offset = start + k * size ∧ (total = 0 ∧ count = size ∨
      k * size < total ∧ count = min size (total - k * size)) := by
  unfold window at h
  split at h
  · cases h
  · cases h
    refine ⟨rfl, ?_⟩
    by_cases htotal : 0 < total
    · exact Or.inr ⟨by omega, if_pos htotal⟩
    · exact Or.inl ⟨by omega, if_neg htotal⟩

/-- Pieces that are not empty tile the interval. -/
theorem tiles_window (hsize : 0 < total → 0 < size) (m : ℕ) : Tiles start total (window start total size) m where
  contiguous k _ offset count h := by
    obtain ⟨rfl, hcount⟩ := window_eq_some h
    rw [covered_window]
    split <;> omega
  disjoint i j hij _ offset count offset' count' hi hj := by
    obtain ⟨rfl, hcount⟩ := window_eq_some hi
    obtain ⟨rfl, -⟩ := window_eq_some hj
    have hstep : i * size + size ≤ j * size := by
      rw [← Nat.succ_mul]
      exact Nat.mul_le_mul_right size hij
    omega
  nonempty htotal k _ offset count h := by
    obtain ⟨-, hcount⟩ := window_eq_some h
    have := hsize htotal
    omega
  inside htotal k _ offset count h := by
    obtain ⟨rfl, hcount⟩ := window_eq_some h
    omega
  exhausted k _ := by
    rw [covered_window, window]
    by_cases htotal : 0 < total
    · simp only [htotal, true_and, if_true, ite_eq_left_iff, reduceCtorEq, imp_false, not_not]
      omega
    · simp [htotal]

/-- Requests that agree up to `m` cover as many places. -/
theorem covered_congr {requests requests' : Requests} {m : ℕ}
    (heq : ∀ k < m, requests' k = requests k) : covered requests' m = covered requests m := by
  induction m with
  | zero => rfl
  | succ m ih => rw [covered, covered, ih fun k hk => heq k (hk.trans m.lt_succ_self),
      heq m m.lt_succ_self]

/-- Requests that agree up to `m` tile the same interval. -/
theorem Tiles.congr {requests requests' : Requests} {m : ℕ} (h : Tiles start total requests m)
    (heq : ∀ k < m, requests' k = requests k) : Tiles start total requests' m := by
  have hcovered : ∀ k ≤ m, covered requests' k = covered requests k := fun k hk =>
    covered_congr fun i hi => heq i (hi.trans_le hk)
  constructor
  · intro k hk offset count hrequest
    rw [hcovered k hk.le]
    rw [heq k hk] at hrequest
    exact h.contiguous k hk offset count hrequest
  · intro i j hij hj offset count offset' count' hi hj'
    rw [heq i (hij.trans hj)] at hi
    rw [heq j hj] at hj'
    exact h.disjoint i j hij hj offset count offset' count' hi hj'
  · intro htotal k hk offset count hrequest
    rw [heq k hk] at hrequest
    exact h.nonempty htotal k hk offset count hrequest
  · intro htotal k hk offset count hrequest
    rw [heq k hk] at hrequest
    exact h.inside htotal k hk offset count hrequest
  · intro k hk
    rw [hcovered k hk.le, heq k hk]
    exact h.exhausted k hk

end Windows
