import MatrixOdbc.Driver.LimitScroller
import Mathlib.Algebra.Order.Floor.Div

/-!
# The number of rows to prefetch

What `calc_prefetch_number` is for: the selected number is rounded up to whole rowsets and
limited by `max_rows`. The multiple is computed with 64 bits and kept in 32 of them.
-/

namespace MatrixOdbc.Driver

variable {selected appFetchs maxRows m : ℕ}

/-- The whole rowsets that hold the selected number of rows. -/
def wholeRowsets (selected appFetchs : ℕ) : ℕ := appFetchs * (selected ⌈/⌉ appFetchs)

/-- The multiples of the rowset size that are at least the selected number. -/
def Multiples (selected appFetchs : ℕ) : Set ℕ := {k | appFetchs ∣ k ∧ selected ≤ k}

/-- The number of rows to prefetch, as it is meant: none if none is selected, else the least
multiple of the rowset size, unless `max_rows` is smaller. -/
structure IsPrefetchNumber (selected appFetchs maxRows result : ℕ) : Prop where
  zero_iff : result = 0 ↔ selected = 0
  value : selected ≠ 0 → ∃ m, IsLeast (Multiples selected appFetchs) m ∧
    result = if 0 < maxRows ∧ maxRows < m then maxRows else m

/-- The whole rowsets are the least multiple. -/
theorem isLeast_wholeRowsets (h : 0 < appFetchs) :
    IsLeast (Multiples selected appFetchs) (wholeRowsets selected appFetchs) := by
  refine ⟨⟨Nat.dvd_mul_right _ _, le_smul_ceilDiv h⟩, ?_⟩
  rintro k ⟨⟨c, rfl⟩, hle⟩
  apply Nat.mul_le_mul_left
  exact (ceilDiv_le_iff_le_smul h).mpr hle

/-- A rowset of no rows has no multiple that holds a row. -/
theorem not_isLeast_zero (h : selected ≠ 0) : ¬ IsLeast (Multiples selected 0) m := by
  rintro ⟨⟨hdvd, hle⟩, -⟩
  rw [Nat.zero_dvd] at hdvd
  omega

/-- Whole rowsets that are selected stay as they are. -/
theorem wholeRowsets_of_mod_eq (hpos : 0 < appFetchs) (h : selected % appFetchs = 0) :
    wholeRowsets selected appFetchs = selected :=
  (isLeast_wholeRowsets hpos).unique
    ⟨⟨Nat.dvd_of_mod_eq_zero h, Nat.le_refl _⟩, fun _ hk => hk.2⟩

/-- A rowset that is begun is counted as a whole one. -/
theorem wholeRowsets_of_mod_pos (h : 0 < selected % appFetchs) (hpos : 0 < appFetchs) :
    wholeRowsets selected appFetchs = appFetchs * (selected / appFetchs + 1) := by
  refine (isLeast_wholeRowsets hpos).unique
    ⟨⟨Nat.dvd_mul_right _ _, (Nat.lt_mul_div_succ selected hpos).le⟩, ?_⟩
  rintro k ⟨⟨c, rfl⟩, hle⟩
  have hne : selected ≠ appFetchs * c := by
    rintro rfl
    rw [Nat.mul_mod_right] at h
    omega
  have hlt : selected / appFetchs < c := Nat.div_lt_of_lt_mul (by omega)
  exact Nat.mul_le_mul_left _ hlt

/-- What is computed are the whole rowsets, less what does not fit in 32 bits. -/
theorem calcPrefetchNumber_eq (hselected : 0 < selected) (hlt : selected < 2 ^ 32)
    (hpos : 0 < appFetchs) (happ : appFetchs < 2 ^ 64) :
    calcPrefetchNumber selected appFetchs maxRows =
      if 0 < maxRows ∧ maxRows < wholeRowsets selected appFetchs % 2 ^ 32 then maxRows
      else wholeRowsets selected appFetchs % 2 ^ 32 := by
  have hmod := Nat.mod_lt selected hpos
  by_cases hwhole : selected % appFetchs = 0
  · have hle : appFetchs ≤ selected := Nat.le_of_dvd hselected (Nat.dvd_of_mod_eq_zero hwhole)
    rw [wholeRowsets_of_mod_eq hpos hwhole, Nat.mod_eq_of_lt hlt, calcPrefetchNumber,
      if_neg (by omega : ¬ selected = 0)]
    simp only
    rw [if_neg (by omega : ¬ (1 < appFetchs ∧ 0 < selected % appFetchs)),
      if_neg (by omega : ¬ (1 < appFetchs ∧ selected < appFetchs))]
  · have hbound : appFetchs * (selected / appFetchs + 1) < 2 ^ 64 := by
      have hdiv := Nat.div_add_mod selected appFetchs
      rw [Nat.mul_add, Nat.mul_one]
      by_cases hsmall : appFetchs ≤ selected
      · omega
      · rw [Nat.div_eq_of_lt (by omega)]
        omega
    have hone : appFetchs ≠ 1 := by
      rintro rfl
      exact hwhole (Nat.mod_one _)
    rw [wholeRowsets_of_mod_pos (by omega) hpos, calcPrefetchNumber, if_neg (by omega)]
    simp only [Nat.mod_eq_of_lt hbound]
    rw [if_pos (by omega : 1 < appFetchs ∧ 0 < selected % appFetchs)]

/-- The prefetch number is as it is meant exactly if the whole rowsets fit in 32 bits, or
`max_rows` limits them to what is left of them there. -/
theorem calcPrefetchNumber_isPrefetchNumber_iff (selected : UInt32) (appFetchs maxRows : UInt64) :
    IsPrefetchNumber selected.toNat appFetchs.toNat maxRows.toNat
        (calcPrefetchNumber selected.toNat appFetchs.toNat maxRows.toNat) ↔
      selected.toNat = 0 ∨ 0 < appFetchs.toNat ∧
        (wholeRowsets selected.toNat appFetchs.toNat < 2 ^ 32 ∨
          0 < maxRows.toNat ∧
            maxRows.toNat ≤ wholeRowsets selected.toNat appFetchs.toNat % 2 ^ 32) := by
  have hselected := selected.toNat_lt
  have happ := appFetchs.toNat_lt
  generalize selected.toNat = s at *
  generalize appFetchs.toNat = a at *
  generalize maxRows.toNat = n at *
  rcases Nat.eq_zero_or_pos s with rfl | hspos
  · exact iff_of_true ⟨by simp [calcPrefetchNumber], fun h => absurd rfl h⟩ (Or.inl rfl)
  rcases Nat.eq_zero_or_pos a with rfl | hapos
  · refine iff_of_false (fun h => ?_) (by omega)
    obtain ⟨m, hleast, -⟩ := h.value (by omega)
    exact not_isLeast_zero (by omega) hleast
  have hleast : IsLeast (Multiples s a) (wholeRowsets s a) := isLeast_wholeRowsets hapos
  have hle : s ≤ wholeRowsets s a := hleast.1.2
  rw [calcPrefetchNumber_eq hspos hselected hapos happ]
  constructor
  · intro h
    obtain ⟨m, hm, hvalue⟩ := h.value (by omega)
    have hnonzero := h.zero_iff
    rw [hm.unique hleast] at hvalue
    split_ifs at hvalue hnonzero <;> omega
  · intro h
    refine ⟨?_, fun _ => ⟨_, hleast, ?_⟩⟩
    · split_ifs <;> omega
    · split_ifs <;> omega

/-- A rowset of `2 ^ 32` rows is rounded to none. -/
theorem calcPrefetchNumber_truncated :
    calcPrefetchNumber 1 (2 ^ 32) 0 = 0 ∧
      ¬ IsPrefetchNumber 1 (2 ^ 32) 0 (calcPrefetchNumber 1 (2 ^ 32) 0) := by
  have hzero : calcPrefetchNumber 1 (2 ^ 32) 0 = 0 := by decide
  refine ⟨hzero, fun h => ?_⟩
  have hselected := h.zero_iff.mp hzero
  omega

end MatrixOdbc.Driver
