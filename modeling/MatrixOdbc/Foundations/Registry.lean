import Mathlib.Data.List.Nodup
import Mathlib.Logic.Function.Basic
import Mathlib.Tactic.Common

/-!
# Objects under keys, and the lists of their keys

A store has an object under some of its keys. Where objects keep lists of the keys of other
objects, such a list stands for a relation: it has exactly the keys of the related objects, each
once. Removing a key removes every occurrence of it.
-/

/-- The object under each key, if there is one. -/
abbrev Store (κ α : Type*) := κ → Option α

namespace Store

variable {κ α : Type*} [DecidableEq κ] {s : Store κ α} {k k' : κ} {a b : α}

/-- An object is put under a key. -/
def put (s : Store κ α) (k : κ) (a : α) : Store κ α := Function.update s k (some a)

/-- The object under a key is deleted. -/
def drop (s : Store κ α) (k : κ) : Store κ α := Function.update s k none

theorem put_apply : s.put k a k' = if k' = k then some a else s k' := Function.update_apply ..

theorem drop_apply : s.drop k k' = if k' = k then none else s k' := Function.update_apply ..

@[simp] theorem put_self : s.put k a k = some a := by rw [put_apply, if_pos rfl]

@[simp] theorem drop_self : s.drop k k = none := by rw [drop_apply, if_pos rfl]

theorem put_of_ne (h : k' ≠ k) : s.put k a k' = s k' := by rw [put_apply, if_neg h]

theorem drop_of_ne (h : k' ≠ k) : s.drop k k' = s k' := by rw [drop_apply, if_neg h]

/-- Putting back what is there changes nothing. -/
theorem put_eq_self (h : s k = some a) : s.put k a = s := by
  rw [put, ← h, Function.update_eq_self]

/-- The last object that is put under a key stays. -/
@[simp] theorem put_put : (s.put k a).put k b = s.put k b := Function.update_idem ..

variable {β : Type*} {f : α → β}

/-- What is told of the objects. -/
def map (f : α → β) (s : Store κ α) : Store κ β := fun k => (s k).map f

omit [DecidableEq κ] in
@[simp] theorem map_apply : s.map f k = (s k).map f := rfl

theorem map_put : (s.put k a).map f = (s.map f).put k (f a) := by
  funext k'
  rw [map_apply, put_apply, put_apply, map_apply]
  split_ifs <;> rfl

theorem map_drop : (s.drop k).map f = (s.map f).drop k := by
  funext k'
  rw [map_apply, drop_apply, drop_apply, map_apply]
  split_ifs <;> rfl

end Store

namespace Registry

variable {κ : Type*} {l : List κ} {P Q : κ → Prop} {k : κ}

/-- The list has exactly the keys with a property, each once. -/
structure Lists (l : List κ) (P : κ → Prop) : Prop where
  nodup : l.Nodup
  mem_iff : ∀ k, k ∈ l ↔ P k

theorem lists_nil (h : ∀ k, ¬ P k) : Lists [] P :=
  ⟨List.nodup_nil, fun k => iff_of_false List.not_mem_nil (h k)⟩

theorem Lists.congr (h : Lists l P) (hPQ : ∀ k, P k ↔ Q k) : Lists l Q :=
  ⟨h.nodup, fun k => (h.mem_iff k).trans (hPQ k)⟩

/-- A list is empty exactly when no key has the property. -/
theorem Lists.eq_nil_iff (h : Lists l P) : l = [] ↔ ∀ k, ¬ P k := by
  rw [List.eq_nil_iff_forall_not_mem]
  exact forall_congr' fun k => not_congr (h.mem_iff k)

/-- A key is added at the end. -/
theorem Lists.add (h : Lists l P) (hk : ¬ P k) : Lists (l ++ [k]) fun x => P x ∨ x = k := by
  constructor
  · rw [← List.concat_eq_append]
    exact h.nodup.concat fun hmem => hk ((h.mem_iff k).mp hmem)
  · intro x
    rw [List.mem_append, List.mem_singleton, h.mem_iff]

/-- A key is removed. -/
theorem Lists.remove [DecidableEq κ] (h : Lists l P) (k : κ) :
    Lists (l.filter (· ≠ k)) fun x => P x ∧ x ≠ k := by
  refine ⟨h.nodup.filter _, fun x => ?_⟩
  rw [List.mem_filter, h.mem_iff, decide_eq_true_iff]

/-- Two lists of the same keys that are both empty or have a key in common. -/
theorem Lists.of_eq {l' : List κ} (h : Lists l P) (h' : Lists l' Q) (heq : l = l') (k : κ) :
    P k ↔ Q k := by
  rw [← h.mem_iff, heq, h'.mem_iff]

end Registry
