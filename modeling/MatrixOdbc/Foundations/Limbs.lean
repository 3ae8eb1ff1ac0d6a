import Mathlib.Data.Nat.Digits.Defs
import Mathlib.Algebra.Order.Ring.Int
import Mathlib.Tactic.Common
import Mathlib.Tactic.Ring

/-!
# Numbers in limbs

A number as an array of words of a machine, each of which holds one digit to a base, the
lowest first. Multiplying leaves digits that are too large until the carry is moved on, and
dividing leaves the remainder in the lowest word.
-/

namespace Limbs

variable {base word factor : ℕ}

/-- Every word but the last holds a digit; the last one may be larger. -/
@[grind =] def Normal (base word : ℕ) : List ℕ → Prop
  | [] => False
  | [top] => top < word
  | low :: high => low < base ∧ Normal base word high

/-- Every word is multiplied. -/
def scale (word factor : ℕ) (limbs : List ℕ) : List ℕ := limbs.map fun limb => limb * factor % word

/-- What does not fit into a digit is added to the next word. -/
@[grind =] def carry (base word : ℕ) : List ℕ → List ℕ
  | [] => []
  | [top] => [top]
  | low :: next :: high => low % base :: carry base word ((next + low / base) % word :: high)
  termination_by limbs => limbs.length

/-- From the highest word on, the remainder of a word goes to the one below it. -/
@[grind =] def unscale (base word factor : ℕ) : List ℕ → List ℕ
  | [] => []
  | low :: high =>
    match unscale base word factor high with
    | [] => [low]
    | next :: high => (low + next % factor * base) % word :: next / factor :: high

/-- The lowest word is divided. -/
def divideLowest (factor : ℕ) : List ℕ → List ℕ
  | [] => []
  | low :: high => low / factor :: high

/-- A number is added to the lowest word. -/
def addLowest (word n : ℕ) : List ℕ → List ℕ
  | [] => []
  | low :: high => (low + n) % word :: high

/-- How many numbers the words can hold. -/
def capacity (base word : ℕ) (limbs : List ℕ) : ℕ := base ^ (limbs.length - 1) * word

theorem capacity_cons {low next : ℕ} {high : List ℕ} :
    capacity base word (low :: next :: high) = base * capacity base word (next :: high) := by
  simp only [capacity, List.length_cons, Nat.add_sub_cancel]
  rw [pow_succ', Nat.mul_assoc]

@[simp] theorem length_carry (limbs : List ℕ) : (carry base word limbs).length = limbs.length := by
  induction limbs using carry.induct base word with
  | case1 => rw [carry]
  | case2 top => rw [carry]
  | case3 low next high ih =>
    rw [carry, List.length_cons, ih]
    rfl

@[simp] theorem length_unscale (limbs : List ℕ) :
    (unscale base word factor limbs).length = limbs.length := by
  induction limbs with
  | nil => rfl
  | cons low high ih =>
    rw [unscale]
    cases hrest : unscale base word factor high with
    | nil =>
      rw [hrest] at ih
      change 1 = high.length + 1
      rw [← ih]
      rfl
    | cons next rest =>
      rw [hrest] at ih
      simpa using ih

@[simp] theorem length_divideLowest (limbs : List ℕ) :
    (divideLowest factor limbs).length = limbs.length := by
  cases limbs with
  | nil => rfl
  | cons low high => rfl

@[simp] theorem length_scale (limbs : List ℕ) :
    (scale word factor limbs).length = limbs.length := List.length_map ..

@[simp] theorem length_addLowest (n : ℕ) (limbs : List ℕ) :
    (addLowest word n limbs).length = limbs.length := by
  cases limbs with
  | nil => rfl
  | cons low high => rfl

/-- Multiplying twice multiplies by the product. -/
theorem scale_scale (factor' : ℕ) (limbs : List ℕ) :
    scale word factor (scale word factor' limbs) = scale word (factor' * factor) limbs := by
  rw [scale, scale, List.map_map, scale]
  congr 1
  funext limb
  rw [Function.comp_apply, Nat.mod_mul_mod, Nat.mul_assoc]

/-- Multiplying again and again multiplies by the power. -/
theorem iterate_scale {limbs : List ℕ} (hlimbs : ∀ limb ∈ limbs, limb < word) (times : ℕ) :
    (scale word factor)^[times] limbs = scale word (factor ^ times) limbs := by
  induction times with
  | zero =>
    have hsame : ∀ limb ∈ limbs, limb * factor ^ 0 % word = id limb := by
      intro limb hlimb
      rw [pow_zero, Nat.mul_one, Nat.mod_eq_of_lt (hlimbs limb hlimb), id]
    rw [Function.iterate_zero_apply, scale, List.map_congr_left hsame, List.map_id]
  | succ times ih => rw [Function.iterate_succ_apply', ih, scale_scale, pow_succ]

/-- The number in normal words is below their capacity. -/
theorem Normal.ofDigits_lt {limbs : List ℕ} (h : Normal base word limbs) :
    Nat.ofDigits base limbs < capacity base word limbs := by
  induction limbs with
  | nil => exact h.elim
  | cons low high ih =>
    cases high with
    | nil => simpa [Normal, Nat.ofDigits_cons, capacity] using h
    | cons next high =>
      obtain ⟨hlow, hhigh⟩ := h
      have hrest := ih hhigh
      rw [capacity_cons, Nat.ofDigits_cons]
      have hle : base * (Nat.ofDigits base (next :: high) + 1) ≤
          base * capacity base word (next :: high) := Nat.mul_le_mul_left _ hrest
      rw [Nat.mul_add, Nat.mul_one] at hle
      omega

/-- The highest word is a digit exactly when the number is below the power of the base. -/
theorem Normal.getLast_lt_iff {limbs : List ℕ} (h : Normal base word limbs) :
    limbs.getLastD 0 < base ↔ Nat.ofDigits base limbs < base ^ limbs.length := by
  induction limbs with
  | nil => exact h.elim
  | cons low high ih =>
    cases high with
    | nil => simp [Nat.ofDigits_cons]
    | cons next high =>
      obtain ⟨hlow, hhigh⟩ := h
      have hlast : (low :: next :: high).getLastD 0 = (next :: high).getLastD 0 := by
        simp [List.getLastD]
      rw [hlast, ih hhigh, @Nat.ofDigits_cons base low, List.length_cons (a := low), pow_succ']
      constructor
      · intro hlt
        have hle := Nat.mul_le_mul_left base (Nat.succ_le_of_lt hlt)
        rw [Nat.mul_succ] at hle
        omega
      · intro hlt
        exact Nat.lt_of_mul_lt_mul_left ((Nat.le_add_left _ _).trans_lt hlt)

/-- The words of a machine. -/
theorem Normal.lt_word {limbs : List ℕ} (h : Normal base word limbs) (hbase : base ≤ word) :
    ∀ limb ∈ limbs, limb < word := by
  induction limbs with
  | nil => exact h.elim
  | cons low high ih =>
    cases high with
    | nil => simpa [Normal] using h
    | cons next high =>
      intro limb hlimb
      obtain rfl | hlimb := List.mem_cons.mp hlimb
      · exact h.1.trans_le hbase
      · exact ih h.2 limb hlimb

/-- Moving the carry on, with the lowest word multiplied and added to before. -/
theorem carry_spec {low : ℕ} {high : List ℕ} (hword : base * factor ≤ word) (hbase : 0 < base)
    (hlow : low < base * factor) (hhigh : Normal base word high) :
    Normal base word (carry base word (low :: scale word factor high)) ∧
      Nat.ofDigits base (carry base word (low :: scale word factor high)) =
        (low + base * (factor * Nat.ofDigits base high)) % capacity base word (low :: high) := by
  induction high generalizing low with
  | nil => exact hhigh.elim
  | cons next high ih =>
    have hcarry : low / base < factor := Nat.div_lt_of_lt_mul hlow
    have hdigit : low % base < base := Nat.mod_lt _ hbase
    have hsplit : ∀ n, (low + base * n) % (base * capacity base word (next :: high)) =
        low % base + base * ((low / base + n) % capacity base word (next :: high)) := by
      intro n
      have hlow' : low + base * n = low % base + base * (low / base + n) := by
        rw [Nat.mul_add]
        have := Nat.mod_add_div low base
        omega
      rw [hlow', Nat.mod_mul, Nat.add_mul_mod_self_left, Nat.mod_eq_of_lt hdigit,
        Nat.add_mul_div_left _ _ hbase, Nat.div_eq_of_lt hdigit, Nat.zero_add]
    rw [scale, List.map_cons, carry, capacity_cons, hsplit]
    cases high with
    | nil =>
      -- The highest word wraps.
      rw [List.map_nil, carry]
      have hmod : (next * factor % word + low / base) % word = (low / base + factor * next) % word := by
        rw [Nat.mod_add_mod, Nat.add_comm, Nat.mul_comm]
      refine ⟨⟨hdigit, ?_⟩, ?_⟩
      · exact Nat.mod_lt _ (Nat.zero_lt_of_lt hhigh)
      · rw [hmod]
        simp [Nat.ofDigits_cons, capacity]
    | cons third high =>
      obtain ⟨hnext, hrest⟩ := hhigh
      have hproduct : next * factor + factor ≤ base * factor := by
        calc next * factor + factor = (next + 1) * factor := by ring
          _ ≤ base * factor := Nat.mul_le_mul_right _ hnext
      have hsum : (next * factor % word + low / base) % word = next * factor + low / base := by
        rw [Nat.mod_add_mod]
        exact Nat.mod_eq_of_lt (by omega)
      obtain ⟨hnormal, hvalue⟩ := @ih (next * factor + low / base) (by omega) hrest
      rw [hsum]
      change Normal base word (low % base ::
          carry base word ((next * factor + low / base) :: scale word factor (third :: high))) ∧
        Nat.ofDigits base (low % base ::
          carry base word ((next * factor + low / base) :: scale word factor (third :: high))) = _
      refine ⟨?_, ?_⟩
      · cases hrun : carry base word
            ((next * factor + low / base) :: scale word factor (third :: high)) with
        | nil =>
          rw [hrun] at hnormal
          exact hnormal.elim
        | cons first rest =>
          rw [hrun] at hnormal
          exact ⟨hdigit, hnormal⟩
      · rw [Nat.ofDigits_cons, hvalue, @Nat.ofDigits_cons base next]
        congr 2
        change _ % capacity base word (next :: third :: high) = _
        congr 1
        ring

/-- Multiplying normal words and adding to the lowest one, up to their capacity. -/
theorem carry_addLowest_scale {limbs : List ℕ} {n : ℕ} (hword : base * factor ≤ word)
    (hbase : 0 < base) (hn : n < factor) (hlimbs : Normal base word limbs) :
    Normal base word (carry base word (addLowest word n (scale word factor limbs))) ∧
      Nat.ofDigits base (carry base word (addLowest word n (scale word factor limbs))) =
        (Nat.ofDigits base limbs * factor + n) % capacity base word limbs := by
  match limbs, hlimbs with
  | [top], hlimbs =>
    rw [scale, List.map_cons, List.map_nil, addLowest, carry, Nat.mod_add_mod]
    refine ⟨Nat.mod_lt _ (Nat.zero_lt_of_lt hlimbs), ?_⟩
    simp [Nat.ofDigits_cons, capacity]
  | low :: next :: high, ⟨hlow, hhigh⟩ =>
    have hproduct : low * factor + factor ≤ base * factor := by
      calc low * factor + factor = (low + 1) * factor := by ring
        _ ≤ base * factor := Nat.mul_le_mul_right _ hlow
    have hsum : (low * factor % word + n) % word = low * factor + n := by
      rw [Nat.mod_add_mod]
      exact Nat.mod_eq_of_lt (by omega)
    have hfit : low * factor + n < base * factor := by omega
    obtain ⟨hnormal, hvalue⟩ := carry_spec hword hbase hfit hhigh
    rw [scale, List.map_cons, addLowest, hsum]
    refine ⟨hnormal, hvalue.trans ?_⟩
    rw [@Nat.ofDigits_cons base low]
    change _ % capacity base word (low :: next :: high) = _
    congr 1
    ring

/-- Adding nothing to words that were multiplied. -/
theorem addLowest_zero_scale (limbs : List ℕ) :
    addLowest word 0 (scale word factor limbs) = scale word factor limbs := by
  cases limbs with
  | nil => rfl
  | cons low high => rw [scale, List.map_cons, addLowest, Nat.add_zero, Nat.mod_mod]

/-- Only the highest word is cut to a digit. -/
theorem Normal.ofDigits_map_mod {limbs : List ℕ} (h : Normal base word limbs) :
    Nat.ofDigits base (limbs.map (· % base)) = Nat.ofDigits base limbs % base ^ limbs.length := by
  induction limbs with
  | nil => exact h.elim
  | cons low high ih =>
    cases high with
    | nil => simp [Nat.ofDigits_cons]
    | cons next high =>
      obtain ⟨hlow, hhigh⟩ := h
      have hbase : 0 < base := Nat.zero_lt_of_lt hlow
      rw [List.map_cons, Nat.ofDigits_cons, ih hhigh, @Nat.ofDigits_cons base low, List.length_cons (a := low),
        pow_succ', Nat.mod_mul, Nat.add_mul_mod_self_left, Nat.add_mul_div_left _ _ hbase,
        Nat.mod_eq_of_lt hlow, Nat.div_eq_of_lt hlow, Nat.zero_add]

/-- Dividing leaves the remainder in the lowest word. -/
theorem unscale_spec {limbs : List ℕ} (hword : base * factor ≤ word) (hfactor : 0 < factor)
    (hlimbs : Normal base word limbs) :
    ∃ low high, unscale base word factor limbs = low :: high ∧
      low + base * (factor * Nat.ofDigits base high) = Nat.ofDigits base limbs ∧
      Normal base word (low / factor :: high) := by
  induction limbs with
  | nil => exact hlimbs.elim
  | cons low high ih =>
    cases high with
    | nil =>
      refine ⟨low, [], rfl, by simp, ?_⟩
      exact (Nat.div_le_self _ _).trans_lt hlimbs
    | cons next high =>
      obtain ⟨hlow, hhigh⟩ := hlimbs
      obtain ⟨first, rest, hrun, hvalue, hnormal⟩ := ih hhigh
      have hremainder : first % factor + 1 ≤ factor := Nat.mod_lt _ hfactor
      have hfits : low + first % factor * base < base * factor := by
        have hle := Nat.mul_le_mul_right base hremainder
        rw [Nat.add_mul, Nat.one_mul, Nat.mul_comm factor] at hle
        omega
      rw [unscale, hrun]
      refine ⟨low + first % factor * base, first / factor :: rest, ?_, ?_, ?_⟩
      · dsimp only
        rw [Nat.mod_eq_of_lt (by omega)]
      · have hdivide := Nat.mod_add_div first factor
        rw [Nat.ofDigits_cons, Nat.ofDigits_cons, ← hvalue]
        calc low + first % factor * base +
              base * (factor * (first / factor + base * Nat.ofDigits base rest))
            = low + base * (first % factor + factor * (first / factor) +
                base * (factor * Nat.ofDigits base rest)) := by ring
          _ = low + base * (first + base * (factor * Nat.ofDigits base rest)) := by rw [hdivide]
      · exact ⟨Nat.div_lt_of_lt_mul (by rwa [Nat.mul_comm factor]), hnormal⟩

/-- The highest word goes first, and its remainder to the word below. -/
theorem unscale_append (limbs : List ℕ) (low high : ℕ) :
    unscale base word factor (limbs ++ [low, high]) =
      unscale base word factor (limbs ++ [(low + high % factor * base) % word]) ++
        [high / factor] := by
  induction limbs with
  | nil => rfl
  | cons limb limbs ih =>
    have hne : unscale base word factor (limbs ++ [(low + high % factor * base) % word]) ≠ [] := by
      rw [← List.length_pos_iff, length_unscale]
      simp
    obtain ⟨next, rest, hrun⟩ := List.exists_cons_of_ne_nil hne
    rw [List.cons_append, unscale, ih, hrun, List.cons_append, List.cons_append, unscale, hrun]
    rfl

/-- Words below the base are normal. -/
theorem normal_of_lt {limbs : List ℕ} (hne : limbs ≠ []) (hbase : base ≤ word)
    (hlimbs : ∀ limb ∈ limbs, limb < base) : Normal base word limbs := by
  induction limbs with
  | nil => exact absurd rfl hne
  | cons low high ih =>
    have hlow := hlimbs low List.mem_cons_self
    cases high with
    | nil => exact hlow.trans_le hbase
    | cons next high =>
      exact ⟨hlow, ih (List.cons_ne_nil _ _) fun limb hlimb =>
        hlimbs limb (List.mem_cons_of_mem _ hlimb)⟩

/-- The remainder in the lowest word. -/
theorem head_unscale {limbs : List ℕ} (hword : base * factor ≤ word) (hfactor : 0 < factor)
    (hlimbs : Normal base word limbs) :
    (unscale base word factor limbs).headD 0 % factor = Nat.ofDigits base limbs % factor := by
  obtain ⟨low, high, hrun, hvalue, -⟩ := unscale_spec hword hfactor hlimbs
  rw [hrun, List.headD_cons, ← hvalue, ← Nat.mul_assoc, Nat.mul_comm base, Nat.mul_assoc,
    Nat.add_mul_mod_self_left]

/-- The quotient is left when the lowest word is divided, too. -/
theorem divideLowest_unscale {limbs : List ℕ} (hword : base * factor ≤ word) (hfactor : 0 < factor)
    (hlimbs : Normal base word limbs) :
    Normal base word (divideLowest factor (unscale base word factor limbs)) ∧
      Nat.ofDigits base (divideLowest factor (unscale base word factor limbs)) =
        Nat.ofDigits base limbs / factor := by
  obtain ⟨low, high, hrun, hvalue, hnormal⟩ := unscale_spec hword hfactor hlimbs
  rw [hrun, divideLowest]
  refine ⟨hnormal, ?_⟩
  rw [← hvalue, ← Nat.mul_assoc, Nat.mul_comm base, Nat.mul_assoc,
    Nat.add_mul_div_left _ _ hfactor, Nat.ofDigits_cons]

end Limbs
