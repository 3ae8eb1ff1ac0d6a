import Mathlib.Logic.Function.Basic
import Mathlib.Data.List.Basic
import Mathlib.Algebra.Order.Ring.Int
import Mathlib.Tactic.Common

/-!
# Strings in memory

A memory of bytes, the strings in it that end with a zero byte, and what single writes do to
them.
-/

namespace CText

variable {mem mem' : ℤ → UInt8} {p q : ℤ} {s : List UInt8} {c : UInt8}

/-- The memory holds the text, which is not interrupted by a zero, and a zero behind it. -/
structure IsString (mem : ℤ → UInt8) (p : ℤ) (s : List UInt8) : Prop where
  spells : ∀ (i : ℕ) (c : UInt8), s[i]? = some c → mem (p + i) = c
  nonzero : 0 ∉ s
  ends : mem (p + s.length) = 0

/-- `strlen`, with an upper bound of the length. -/
def strlen (mem : ℤ → UInt8) : ℕ → ℤ → ℕ
  | 0, _ => 0
  | fuel + 1, p => if mem p = 0 then 0 else strlen mem fuel (p + 1) + 1

namespace IsString

/-- Nothing but the bytes of the string and the zero matter. -/
theorem congr (h : IsString mem p s)
    (hsame : ∀ q, p ≤ q → q ≤ p + s.length → mem' q = mem q) : IsString mem' p s := by
  refine ⟨fun i c hc => ?_, h.nonzero, ?_⟩
  · have hlt := (List.getElem?_eq_some_iff.mp hc).1
    rw [hsame _ (by omega) (by omega), h.spells i c hc]
  · rw [hsame _ (by omega) le_rfl, h.ends]

/-- No string ends inside another. -/
theorem length_le {s' : List UInt8} (h : IsString mem p s) (h' : IsString mem p s') :
    s.length ≤ s'.length := by
  by_contra hlong
  have hlt : s'.length < s.length := not_le.mp hlong
  have hbyte := h.spells s'.length _ (List.getElem?_eq_getElem hlt)
  rw [h'.ends] at hbyte
  exact h.nonzero (hbyte ▸ List.getElem_mem hlt)

/-- A string is known from its place. -/
theorem eq {s' : List UInt8} (h : IsString mem p s) (h' : IsString mem p s') : s = s' := by
  have hlength : s.length = s'.length := le_antisymm (h.length_le h') (h'.length_le h)
  refine List.ext_getElem hlength fun i hi hi' => ?_
  exact (h.spells i _ (List.getElem?_eq_getElem hi)).symm.trans
    (h'.spells i _ (List.getElem?_eq_getElem hi'))

/-- The bytes of the rest. -/
theorem tail (h : IsString mem p (c :: s)) : IsString mem (p + 1) s := by
  refine ⟨fun i d hd => ?_, fun hmem => h.nonzero (List.mem_cons_of_mem _ hmem), ?_⟩
  · have hbyte := h.spells (i + 1) d (by simpa using hd)
    rwa [Nat.cast_add, Nat.cast_one, add_comm (i : ℤ) 1, ← add_assoc] at hbyte
  · have hends := h.ends
    rwa [List.length_cons, Nat.cast_add, Nat.cast_one, add_comm (s.length : ℤ) 1,
      ← add_assoc] at hends

/-- The first byte. -/
theorem head (h : IsString mem p (c :: s)) : mem p = c := by
  simpa using h.spells 0 c rfl

/-- A byte in front of a string. -/
theorem of_cons (h : IsString mem (p + 1) s) (hc : mem p = c) (hzero : c ≠ 0) :
    IsString mem p (c :: s) := by
  refine ⟨fun i d hd => ?_, ?_, ?_⟩
  · cases i with
    | zero =>
      obtain rfl : c = d := by simpa using hd
      simpa using hc
    | succ i =>
      have hbyte := h.spells i d (by simpa using hd)
      rwa [add_assoc, add_comm (1 : ℤ), ← Nat.cast_one, ← Nat.cast_add] at hbyte
  · rw [List.mem_cons, not_or]
    exact ⟨hzero.symm, h.nonzero⟩
  · have hends := h.ends
    rwa [add_assoc, add_comm (1 : ℤ), ← Nat.cast_one, ← Nat.cast_add] at hends

/-- A byte that is written in front of a string. -/
theorem cons (h : IsString mem (p + 1) s) (hzero : c ≠ 0) :
    IsString (Function.update mem p c) p (c :: s) := by
  refine of_cons (h.congr fun q hq _ => ?_) (Function.update_self p c mem) hzero
  exact Function.update_of_ne (by omega) _ _

/-- The last byte. -/
theorem last (h : IsString mem p (s ++ [c])) : mem (p + s.length) = c :=
  h.spells s.length c (by simp)

/-- A zero over the last byte. -/
theorem cut (h : IsString mem p (s ++ [c])) :
    IsString (Function.update mem (p + s.length) 0) p s := by
  refine ⟨fun i d hd => ?_, fun hmem => h.nonzero (List.mem_append_left _ hmem),
    Function.update_self _ _ _⟩
  have hlt := (List.getElem?_eq_some_iff.mp hd).1
  rw [Function.update_of_ne (by omega)]
  exact h.spells i d (by rw [List.getElem?_append_left hlt, hd])

/-- The length that is counted. -/
theorem strlen_eq {fuel : ℕ} (h : IsString mem p s) (hfuel : s.length ≤ fuel) :
    strlen mem fuel p = s.length := by
  induction fuel generalizing p s with
  | zero => rw [strlen, Nat.le_zero.mp hfuel]
  | succ fuel ih =>
    cases s with
    | nil =>
      have hends := h.ends
      rw [List.length_nil, Nat.cast_zero, add_zero] at hends
      rw [strlen, if_pos hends, List.length_nil]
    | cons c s =>
      have hc : c ≠ 0 := fun hc => h.nonzero (by simp [hc])
      rw [strlen, h.head, if_neg hc, ih h.tail (by simpa using hfuel), List.length_cons]

end IsString

end CText
