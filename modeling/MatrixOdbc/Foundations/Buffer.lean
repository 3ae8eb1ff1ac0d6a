import Mathlib.Data.List.TakeDrop
import Mathlib.Tactic.Common

/-!
# Buffers and memory

A buffer is the list of what it holds. A loop that fills it from the front is
followed by splitting it into the part written so far and the part still free.
A memory gives the content of every address; what is placed in it is read back.
-/

namespace Buffer

variable {α : Type*} {buf written free xs : List α} {i : ℕ}

/-- Store `xs` from position `i` on. -/
def store (buf : List α) (i : ℕ) (xs : List α) : List α :=
  buf.take i ++ (xs ++ buf.drop (i + xs.length))

@[simp] theorem store_nil : store buf i [] = buf := by simp [store]

/-- A store inside the buffer keeps its size. -/
theorem length_store (h : i + xs.length ≤ buf.length) : (store buf i xs).length = buf.length := by
  simp only [store, List.length_append, List.length_take, List.length_drop]
  omega

/-- A store behind the written part makes that part longer. -/
theorem store_append (h : i = written.length) :
    store (written ++ free) i xs = written ++ xs ++ free.drop xs.length := by
  subst h
  have hdrop : (written ++ free).drop (written.length + xs.length) = free.drop xs.length := by
    rw [← List.drop_drop, List.drop_left]
  rw [store, hdrop, List.take_left, List.append_assoc]

/-- The buffer up to the end of what is stored. -/
theorem take_store (h : i + xs.length ≤ buf.length) :
    (store buf i xs).take (i + xs.length) = buf.take i ++ xs := by
  have htake : (buf.take i).length = i := by
    rw [List.length_take]
    omega
  rw [store, ← List.append_assoc, List.take_left']
  rw [List.length_append, htake]

/-- Store `xs` from position `i` on if all of it lies in the buffer. -/
def storeWithin (buf : List α) (i : ℕ) (xs : List α) : Option (List α) :=
  if i + xs.length ≤ buf.length then some (store buf i xs) else none

theorem storeWithin_of_le (h : i + xs.length ≤ buf.length) :
    storeWithin buf i xs = some (store buf i xs) := if_pos h

theorem storeWithin_of_lt (h : buf.length < i + xs.length) : storeWithin buf i xs = none :=
  if_neg (Nat.not_le_of_lt h)

/-- A function of everything that a buffer holds. -/
theorem map_store {β : Type*} (f : α → β) (buf : List α) (i : ℕ) (xs : List α) :
    (store buf i xs).map f = store (buf.map f) i (xs.map f) := by
  simp only [store, List.map_append, List.map_take, List.map_drop, List.length_map]

/-- A store at the front of a buffer. -/
theorem store_zero (buf xs : List α) : store buf 0 xs = xs ++ buf.drop xs.length := by
  simp [store]

end Buffer

namespace Memory

variable {α : Type*} (mem : ℕ → α) (addr : ℕ) (xs : List α)

/-- The memory with `xs` placed at `addr`. -/
def write : ℕ → α := fun a => if addr ≤ a then xs.getD (a - addr) (mem a) else mem a

/-- The content of the `n` places from `addr` on. -/
def read (n : ℕ) : List α := (List.range n).map fun i => mem (addr + i)

@[simp] theorem length_read (n : ℕ) : (read mem addr n).length = n := by simp [read]

/-- A part of what has been placed is read back. -/
theorem read_write {k n : ℕ} (h : k + n ≤ xs.length) :
    read (write mem addr xs) (addr + k) n = (xs.drop k).take n := by
  apply List.ext_getElem
  · simp only [length_read, List.length_take, List.length_drop]
    omega
  · intro i hi hi'
    have hin : k + i < xs.length := by
      rw [length_read] at hi
      omega
    have hoffset : addr + k + i - addr = k + i := by omega
    have hle : addr ≤ addr + k + i := by omega
    simp [read, write, hoffset, hle, List.getD_eq_getElem?_getD, hin]

end Memory
