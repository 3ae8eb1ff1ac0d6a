import Mathlib.Logic.Relation
import Mathlib.Tactic.Common

/-!
# Loops as step functions

A `while` loop of a source program is given by its body: one evaluation either
leaves the loop with a result or goes round again in a new state. Nothing here
assumes that the loop ends. Termination, divergence and loop invariants are
stated for the body and lifted to the whole loop by induction.
-/

namespace WhileLoop

variable {σ ρ : Type*}

/-- One evaluation of a loop: it is left with a result, or entered again. -/
inductive Step (σ ρ : Type*) where
  | done (result : ρ)
  | next (state : σ)
  deriving DecidableEq

/-- The state in which the loop is entered again. -/
def Step.next? : Step σ ρ → Option σ
  | .done _ => none
  | .next s => some s

theorem Step.next?_eq_some {step : Step σ ρ} {s : σ} : step.next? = some s ↔ step = .next s := by
  cases step <;> simp [Step.next?]

/-- Run a loop for at most the given number of evaluations of its body. -/
@[grind =] def run (body : σ → Step σ ρ) : ℕ → σ → Option ρ
  | 0, _ => none
  | fuel + 1, s =>
    match body s with
    | .done r => some r
    | .next s' => run body fuel s'

/-- The states in which the body is evaluated when the loop starts in `s`. -/
def Reaches (body : σ → Step σ ρ) : σ → σ → Prop :=
  Relation.ReflTransGen fun s s' => body s = .next s'

/-- The loop started in `s` ends with the result `r`. -/
def Returns (body : σ → Step σ ρ) (s : σ) (r : ρ) : Prop := ∃ fuel, run body fuel s = some r

/-- The loop started in `s` ends. -/
def Terminates (body : σ → Step σ ρ) (s : σ) : Prop := ∃ r, Returns body s r

variable {body : σ → Step σ ρ} {s s' t : σ} {r r' : ρ}

theorem Reaches.refl : Reaches body s s := Relation.ReflTransGen.refl

theorem Reaches.head (h : body s = .next s') (h' : Reaches body s' t) : Reaches body s t :=
  Relation.ReflTransGen.head h h'

theorem run_succ_done (h : body s = .done r) (fuel : ℕ) : run body (fuel + 1) s = some r := by
  simp [run, h]

theorem run_succ_next (h : body s = .next s') (fuel : ℕ) :
    run body (fuel + 1) s = run body fuel s' := by
  simp [run, h]

/-- More fuel never changes a result that has been reached. -/
theorem run_mono {fuel fuel' : ℕ} (hle : fuel ≤ fuel') (h : run body fuel s = some r) :
    run body fuel' s = some r := by
  induction fuel generalizing s fuel' with
  | zero => simp [run] at h
  | succ fuel ih =>
    obtain ⟨k, rfl⟩ := Nat.exists_eq_add_of_le' (show 1 ≤ fuel' by omega)
    cases hb : body s with
    | done r₀ => rwa [run_succ_done hb] at h ⊢
    | next s' =>
      rw [run_succ_next hb] at h ⊢
      exact ih (by omega) h

/-- A loop has at most one result. -/
theorem Returns.unique (h : Returns body s r) (h' : Returns body s r') : r = r' := by
  obtain ⟨n, hn⟩ := h
  obtain ⟨m, hm⟩ := h'
  have hn' := run_mono (Nat.le_max_left n m) hn
  have hm' := run_mono (Nat.le_max_right n m) hm
  simpa [hn'] using hm'

theorem returns_of_done (h : body s = .done r) : Returns body s r := ⟨1, run_succ_done h 0⟩

/-- Going round once does not change the result of the loop. -/
theorem returns_next_iff (h : body s = .next s') : Returns body s r ↔ Returns body s' r := by
  constructor
  · rintro ⟨fuel, hrun⟩
    cases fuel with
    | zero => simp [run] at hrun
    | succ fuel => exact ⟨fuel, by rwa [run_succ_next h] at hrun⟩
  · rintro ⟨fuel, hrun⟩
    exact ⟨fuel + 1, by rwa [run_succ_next h]⟩

/-- A loop has the result it has from any state it passes through. -/
theorem Reaches.returns_iff (h : Reaches body s t) : Returns body s r ↔ Returns body t r := by
  induction h with
  | refl => rfl
  | tail _ hstep ih => rw [ih, returns_next_iff hstep]

theorem Reaches.terminates_iff (h : Reaches body s t) :
    Terminates body s ↔ Terminates body t :=
  exists_congr fun _ => h.returns_iff

/-- The result of a loop is produced by the body in some state passed through. -/
theorem Returns.exists_done (h : Returns body s r) : ∃ t, Reaches body s t ∧ body t = .done r := by
  obtain ⟨fuel, hrun⟩ := h
  induction fuel generalizing s with
  | zero => simp [run] at hrun
  | succ fuel ih =>
    cases hb : body s with
    | done r₀ =>
      rw [run_succ_done hb] at hrun
      exact ⟨s, .refl, by rw [hb, Option.some.inj hrun]⟩
    | next s' =>
      rw [run_succ_next hb] at hrun
      obtain ⟨t, hreach, hdone⟩ := ih hrun
      exact ⟨t, .head hb hreach, hdone⟩

/-- The loop rule: what holds at the start and is kept by the body holds in
every state in which the body is evaluated. -/
theorem Reaches.invariant (I : σ → Prop) (hstep : ∀ t t', I t → body t = .next t' → I t')
    (hs : I s) (h : Reaches body s t) : I t := by
  induction h with
  | refl => exact hs
  | tail _ hnext ih => exact hstep _ _ ih hnext

/-- A measure that decreases on every round bounds the number of rounds. -/
theorem run_eq_some_of_measure (μ : σ → ℕ)
    (hμ : ∀ t t', Reaches body s t → body t = .next t' → μ t' < μ t) {fuel : ℕ}
    (hfuel : μ s < fuel) : ∃ r, run body fuel s = some r := by
  induction fuel generalizing s with
  | zero => omega
  | succ fuel ih =>
    cases hb : body s with
    | done r => exact ⟨r, run_succ_done hb fuel⟩
    | next s' =>
      have hlt := hμ s s' .refl hb
      obtain ⟨r, hr⟩ := ih (s := s') (fun t t' ht hn => hμ t t' (.head hb ht) hn) (by omega)
      exact ⟨r, by rwa [run_succ_next hb]⟩

theorem terminates_of_measure (μ : σ → ℕ)
    (hμ : ∀ t t', Reaches body s t → body t = .next t' → μ t' < μ t) : Terminates body s := by
  obtain ⟨r, hr⟩ := run_eq_some_of_measure μ hμ (Nat.lt_succ_self _)
  exact ⟨r, _, hr⟩

/-- A set of states that the body never leaves is a trap: no fuel suffices. -/
theorem not_terminates_of_trap (C : σ → Prop) (htrap : ∀ t, C t → ∃ t', body t = .next t' ∧ C t')
    (hreach : Reaches body s t) (ht : C t) : ¬ Terminates body s := by
  rw [hreach.terminates_iff]
  rintro ⟨r, fuel, hrun⟩
  induction fuel generalizing t with
  | zero => simp [run] at hrun
  | succ fuel ih =>
    obtain ⟨t', hnext, ht'⟩ := htrap t ht
    rw [run_succ_next hnext] at hrun
    exact ih (hreach.tail hnext) ht' hrun

end WhileLoop
