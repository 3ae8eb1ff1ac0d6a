import Mathlib.Logic.Function.Basic
import Mathlib.Tactic.Common

/-!
# Memory after a sequence of writes

A run writes to places one after the other, at most once in each step. A place keeps
what the last step that wrote to it has written.
-/

namespace Writes

variable {α β : Type*} [DecidableEq α] {writes : ℕ → Option (α × β)} {k : ℕ} {a : α} {b : β}

/-- One write, if the step makes one. -/
def store (write : Option (α × β)) (memory : α → Option β) : α → Option β :=
  match write with
  | some (a, b) => Function.update memory a (some b)
  | none => memory

/-- The memory after the first steps. -/
def memory (writes : ℕ → Option (α × β)) : ℕ → α → Option β
  | 0 => fun _ => none
  | k + 1 => store (writes k) (memory writes k)

theorem store_same (memory : α → Option β) : store (some (a, b)) memory a = some b :=
  Function.update_self _ _ _

/-- A step that does not write to a place leaves it alone. -/
theorem store_of_ne {write : Option (α × β)} {memory : α → Option β}
    (h : ∀ b, write ≠ some (a, b)) : store write memory a = memory a := by
  cases write with
  | none => rfl
  | some place =>
    obtain ⟨a', b'⟩ := place
    apply Function.update_of_ne
    rintro rfl
    exact h b' rfl

/-- A place keeps the last write. -/
theorem memory_eq_some_iff : memory writes k a = some b ↔
    ∃ j < k, writes j = some (a, b) ∧ ∀ j', j < j' → j' < k → ∀ b', writes j' ≠ some (a, b') := by
  induction k with
  | zero => simp [memory]
  | succ k ih =>
    by_cases h : ∃ b', writes k = some (a, b')
    · obtain ⟨b', hb'⟩ := h
      rw [memory, hb', store_same]
      constructor
      · intro heq
        rw [Option.some.inj heq] at hb'
        exact ⟨k, Nat.lt_succ_self k, hb', fun j' hlt hlt' => by omega⟩
      · rintro ⟨j, hj, hwrite, hlast⟩
        have hjk : j = k := by
          by_contra hne
          exact hlast k (by omega) (Nat.lt_succ_self k) b' hb'
        rw [hjk, hb'] at hwrite
        cases hwrite
        rfl
    · have hnone : ∀ b', writes k ≠ some (a, b') := fun b' hb' => h ⟨b', hb'⟩
      rw [memory, store_of_ne hnone, ih]
      constructor
      · rintro ⟨j, hj, hwrite, hlast⟩
        refine ⟨j, by omega, hwrite, fun j' hlt hlt' => ?_⟩
        rcases Nat.lt_succ_iff_lt_or_eq.mp hlt' with hlt' | rfl
        · exact hlast j' hlt hlt'
        · exact hnone
      · rintro ⟨j, hj, hwrite, hlast⟩
        have hjk : j ≠ k := by
          rintro rfl
          exact hnone b hwrite
        exact ⟨j, by omega, hwrite, fun j' hlt hlt' => hlast j' hlt (by omega)⟩

/-- The places that were written to. -/
theorem memory_ne_none_iff : memory writes k a ≠ none ↔ ∃ j < k, ∃ b, writes j = some (a, b) := by
  induction k with
  | zero => simp [memory]
  | succ k ih =>
    by_cases h : ∃ b, writes k = some (a, b)
    · obtain ⟨b, hb⟩ := h
      rw [memory, hb, store_same]
      exact iff_of_true (Option.some_ne_none b) ⟨k, Nat.lt_succ_self k, b, hb⟩
    · rw [memory, store_of_ne fun b hb => h ⟨b, hb⟩, ih]
      constructor
      · rintro ⟨j, hj, hwrite⟩
        exact ⟨j, by omega, hwrite⟩
      · rintro ⟨j, hj, hwrite⟩
        refine ⟨j, ?_, hwrite⟩
        rcases Nat.lt_succ_iff_lt_or_eq.mp hj with hj | rfl
        · exact hj
        · exact absurd hwrite h

end Writes
