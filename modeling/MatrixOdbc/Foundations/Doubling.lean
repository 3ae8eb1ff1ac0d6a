import Mathlib.Data.List.Basic
import Mathlib.Tactic.Common

/-!
# Delimiters escaped by doubling

Many text formats write a value between delimiters and double every occurrence
of the closing delimiter inside it. This file develops that convention over an
arbitrary alphabet: doubling, its inverse, and the position of the first
delimiter that is not one of a doubled pair. Reading a printed value back is
`closing_double` followed by `undouble_double`.
-/

namespace Doubling

variable {α : Type*} [DecidableEq α] {d c : α} {word rest prefixWord : List α}

/-- Write every occurrence of the delimiter twice. -/
@[grind =] def double (d : α) : List α → List α
  | [] => []
  | c :: word => if c = d then d :: d :: double d word else c :: double d word

/-- Read every doubled delimiter as one occurrence. -/
@[grind =] def undouble (d : α) : List α → List α
  | [] => []
  | [c] => [c]
  | c :: c' :: word =>
    if c = d ∧ c' = d then d :: undouble d word else c :: undouble d (c' :: word)

/-- The offset of the first delimiter that is not part of a doubled pair,
pairs being taken from the left. -/
@[grind =] def closing (d : α) : List α → Option ℕ
  | [] => none
  | [c] => if c = d then some 0 else none
  | c :: c' :: word =>
    if c = d then if c' = d then (closing d word).map (· + 2) else some 0
    else (closing d (c' :: word)).map (· + 1)

@[simp] theorem double_nil : double d [] = [] := rfl

@[simp] theorem double_cons_self : double d (d :: word) = d :: d :: double d word := by
  simp [double]

theorem double_cons_of_ne (h : c ≠ d) : double d (c :: word) = c :: double d word := by
  simp [double, h]

theorem double_eq_self (h : d ∉ word) : double d word = word := by
  induction word with
  | nil => rfl
  | cons c word ih =>
    obtain ⟨hc, hword⟩ := not_or.mp (List.mem_cons.not.mp h)
    rw [double_cons_of_ne (Ne.symm hc), ih hword]

/-- Doubling brings in no new units. -/
theorem notMem_double (h : c ∉ word) (hc : c ≠ d) : c ∉ double d word := by
  induction word with
  | nil => exact h
  | cons c' word ih =>
    obtain ⟨hc', hword⟩ := not_or.mp (List.mem_cons.not.mp h)
    by_cases hd : c' = d
    · subst hd
      simp [hc, ih hword]
    · simp [double_cons_of_ne hd, hc', ih hword]

@[simp] theorem undouble_pair : undouble d (d :: d :: word) = d :: undouble d word := by
  simp [undouble]

theorem undouble_cons_of_ne (h : c ≠ d) : undouble d (c :: word) = c :: undouble d word := by
  cases word with
  | nil => rfl
  | cons c' word => simp [undouble, h]

/-- Undoubling inverts doubling. -/
theorem undouble_double (d : α) (word : List α) : undouble d (double d word) = word := by
  induction word with
  | nil => rfl
  | cons c word ih =>
    by_cases hc : c = d
    · subst hc
      rw [double_cons_self, undouble_pair, ih]
    · rw [double_cons_of_ne hc, undouble_cons_of_ne hc, ih]

theorem undouble_eq_self (h : d ∉ word) : undouble d word = word := by
  conv_lhs => rw [← double_eq_self h]
  exact undouble_double d word

theorem closing_pair : closing d (d :: d :: word) = (closing d word).map (· + 2) := by
  simp [closing]

theorem closing_cons_of_ne (h : c ≠ d) : closing d (c :: word) = (closing d word).map (· + 1) := by
  cases word with
  | nil => simp [closing, h]
  | cons c' word => simp [closing, h]

/-- A delimiter that no second one follows is the closing one. -/
theorem closing_self (h : rest.head? ≠ some d) : closing d (d :: rest) = some 0 := by
  cases rest with
  | nil => simp [closing]
  | cons c rest =>
    have hc : c ≠ d := by simpa using h
    simp [closing, hc]

/-- The delimiter behind a doubled word is the closing one. -/
theorem closing_double (h : rest.head? ≠ some d) :
    closing d (double d word ++ d :: rest) = some (double d word).length := by
  induction word with
  | nil => simpa using closing_self h
  | cons c word ih =>
    by_cases hc : c = d
    · subst hc
      simp only [double_cons_self, List.cons_append, closing_pair, ih]
      simp
    · simp only [double_cons_of_ne hc, List.cons_append, closing_cons_of_ne hc, ih]
      simp

/-- Text without the delimiter in front of a word only shifts the position. -/
theorem closing_append (h : d ∉ prefixWord) :
    closing d (prefixWord ++ word) = (closing d word).map (· + prefixWord.length) := by
  induction prefixWord with
  | nil => simp
  | cons c prefixWord ih =>
    obtain ⟨hc, hrest⟩ := not_or.mp (List.mem_cons.not.mp h)
    rw [List.cons_append, closing_cons_of_ne (Ne.symm hc), ih hrest, Option.map_map]
    congr 1

/-- The closing position holds the delimiter. -/
theorem exists_eq_of_closing {k : ℕ} (h : closing d word = some k) :
    ∃ before after, word = before ++ d :: after ∧ before.length = k := by
  induction word using closing.induct d generalizing k with
  | case1 => simp [closing] at h
  | case2 =>
    obtain rfl : 0 = k := by simpa [closing] using h
    exact ⟨[], [], rfl, rfl⟩
  | case3 c hc => simp [closing, hc] at h
  | case4 word ih =>
    rw [closing_pair] at h
    obtain ⟨j, hj, rfl⟩ := Option.map_eq_some_iff.mp h
    obtain ⟨before, after, rfl, rfl⟩ := ih hj
    exact ⟨d :: d :: before, after, rfl, rfl⟩
  | case5 c' word hc' =>
    obtain rfl : 0 = k := by simpa [closing, hc'] using h
    exact ⟨[], c' :: word, rfl, rfl⟩
  | case6 c c' word hc ih =>
    rw [closing_cons_of_ne hc] at h
    obtain ⟨j, hj, rfl⟩ := Option.map_eq_some_iff.mp h
    obtain ⟨before, after, heq, rfl⟩ := ih hj
    exact ⟨c :: before, after, by rw [heq, List.cons_append], rfl⟩

end Doubling
