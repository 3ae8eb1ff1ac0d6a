import Mathlib.Logic.Function.Basic
import Mathlib.Tactic.Common

/-!
# One queue for several owners

What waits in a queue is for one owner, who has still to ask for it, or is stray and for nobody.
-/

namespace SharedQueue

variable {κ α : Type*} {rest : κ → List α} {stray : Bool} {queue : List α} {k : κ}

/-- What the owners have still to ask for is what the queue holds. -/
inductive Queued (rest : κ → List α) (stray : Bool) (queue : List α) : Prop
  | nobody (none : ∀ k, rest k = []) (left : stray = true ↔ queue ≠ [])
  | owner (k : κ) (left : queue ≠ []) (own : rest k = queue) (others : ∀ k' ≠ k, rest k' = [])
      (notStray : stray = false)

/-- The queue is that of an owner exactly when it is not that of another, nor stray. -/
theorem Queued.own_iff (h : Queued rest stray queue) :
    rest k = queue ↔ (∀ k' ≠ k, rest k' = []) ∧ stray = false := by
  cases h with
  | nobody none left =>
    rw [none k]
    constructor
    · rintro rfl
      exact ⟨fun k' _ => none k', Bool.not_eq_true _ ▸ fun h => left.mp h rfl⟩
    · rintro ⟨-, rfl⟩
      exact Eq.symm (not_not.mp (left.not.mp Bool.false_ne_true))
  | owner k' left own others notStray =>
    constructor
    · intro hown
      have hk : k = k' := by
        by_contra hne
        exact left (hown.symm.trans (others k hne))
      exact ⟨hk ▸ others, notStray⟩
    · rintro ⟨hothers, -⟩
      have hk : k' = k := by
        by_contra hne
        exact left (own.symm.trans (hothers k' hne))
      exact hk ▸ own

/-- An owner that the queue is not for has nothing to ask for. -/
theorem Queued.eq_nil_of_ne (h : Queued rest stray queue) (hne : rest k ≠ queue) :
    rest k = [] ∧ queue ≠ [] := by
  cases h with
  | nobody none left => exact ⟨none k, fun hnil => hne ((none k).trans hnil.symm)⟩
  | owner k' left own others _ =>
    refine ⟨others k ?_, left⟩
    rintro rfl
    exact hne own

/-- A queue of what one owner asks for is for that owner exactly when the others have nothing to
ask for. -/
theorem queued_iff_of_own (hown : rest k = queue) :
    Queued rest false queue ↔ ∀ k' ≠ k, rest k' = [] := by
  refine ⟨fun h => (h.own_iff.mp hown).1, fun hothers => ?_⟩
  by_cases hnil : queue = []
  · refine .nobody (fun k' => ?_) (iff_of_false Bool.false_ne_true (not_not.mpr hnil))
    by_cases hk : k' = k
    · rw [hk, hown, hnil]
    · exact hothers k' hk
  · exact .owner k hnil hown hothers rfl

/-- An owner gives up what it could ask for. -/
theorem Queued.giveUp [DecidableEq κ] (h : Queued rest stray queue) :
    Queued (Function.update rest k []) (stray || !(rest k).isEmpty) queue := by
  cases h with
  | nobody none left =>
    rw [none k, Function.update_eq_self_iff.mpr (none k).symm]
    simpa using Queued.nobody none left
  | owner k' left own others notStray =>
    by_cases hk : k' = k
    · subst hk
      refine .nobody (fun k => ?_) (iff_of_true ?_ left)
      · by_cases hne : k = k'
        · rw [hne, Function.update_self]
        · rw [Function.update_of_ne hne, others k hne]
      · rw [own, notStray]
        simpa using left
    · have hnil : rest k = [] := others k (Ne.symm hk)
      rw [hnil, Function.update_eq_self_iff.mpr hnil.symm, notStray]
      exact .owner k' left own others rfl

end SharedQueue
