import Mathlib.Data.List.Basic
import Mathlib.Tactic.Common

/-!
# Refinement of runs

A machine takes inputs one after the other; a step may fail to return. A
specification has states of its own, a condition on the next input and a property
of the output. If every step that begins in related states and meets the condition
returns an output with the property and ends in related states, then so does every
run whose steps all meet the condition.
-/

namespace Refinement

variable {σ τ ι ο : Type*}

/-- A run of a machine over its inputs, with the outputs in order. -/
def run (step : σ → ι → Option (σ × ο)) : σ → List ι → Option (σ × List ο)
  | s, [] => some (s, [])
  | s, input :: inputs =>
    match step s input with
    | some (s, output) =>
      (run step s inputs).map fun result => (result.1, output :: result.2)
    | none => none

/-- What a specification says: the state behind an input, when the input is allowed
and which outputs are right. -/
structure Spec (τ ι ο : Type*) where
  next : τ → ι → τ
  allowed : τ → ι → Prop
  right : τ → ι → ο → Prop

namespace Spec

/-- Every input of a run is allowed where it comes. -/
def Allowed (S : Spec τ ι ο) : τ → List ι → Prop
  | _, [] => True
  | t, input :: inputs => S.allowed t input ∧ S.Allowed (S.next t input) inputs

/-- Every output of a run is right where it comes. -/
def Right (S : Spec τ ι ο) : τ → List ι → List ο → Prop
  | _, [], outputs => outputs = []
  | _, _ :: _, [] => False
  | t, input :: inputs, output :: outputs =>
    S.right t input output ∧ S.Right (S.next t input) inputs outputs

/-- The state behind the inputs of a run. -/
def after (S : Spec τ ι ο) : τ → List ι → τ
  | t, [] => t
  | t, input :: inputs => S.after (S.next t input) inputs

theorem after_append (S : Spec τ ι ο) (t : τ) (first second : List ι) :
    S.after t (first ++ second) = S.after (S.after t first) second := by
  induction first generalizing t with
  | nil => rfl
  | cons input inputs ih => exact ih (S.next t input)

theorem allowed_append (S : Spec τ ι ο) (t : τ) (first second : List ι) :
    S.Allowed t (first ++ second) ↔ S.Allowed t first ∧ S.Allowed (S.after t first) second := by
  induction first generalizing t with
  | nil => exact ⟨fun h => ⟨trivial, h⟩, And.right⟩
  | cons input inputs ih =>
    rw [List.cons_append, Allowed, Allowed, ih, and_assoc]
    rfl

end Spec

/-- A step from related states with an allowed input returns a right output, in related
states. -/
def Refines (step : σ → ι → Option (σ × ο)) (S : Spec τ ι ο) (R : σ → τ → Prop) : Prop :=
  ∀ s t input, R s t → S.allowed t input →
    ∃ s' output, step s input = some (s', output) ∧ S.right t input output ∧ R s' (S.next t input)

variable {step : σ → ι → Option (σ × ο)} {S : Spec τ ι ο} {R : σ → τ → Prop}

@[simp] theorem run_nil {s : σ} : run step s [] = some (s, []) := rfl

theorem run_cons {s s' : σ} {input : ι} {inputs : List ι} {output : ο}
    (h : step s input = some (s', output)) :
    run step s (input :: inputs) =
      (run step s' inputs).map fun result => (result.1, output :: result.2) := by
  simp only [run, h]

/-- A run whose inputs are all allowed returns, with right outputs, in related states. -/
theorem Refines.run (h : Refines step S R) {s : σ} {t : τ} {inputs : List ι} (hR : R s t)
    (hallowed : S.Allowed t inputs) :
    ∃ s' outputs, Refinement.run step s inputs = some (s', outputs) ∧ S.Right t inputs outputs ∧
      R s' (S.after t inputs) := by
  induction inputs generalizing s t with
  | nil => exact ⟨s, [], rfl, rfl, hR⟩
  | cons input inputs ih =>
    obtain ⟨s₁, output, hstep, hright, hR₁⟩ := h s t input hR hallowed.1
    obtain ⟨s', outputs, hrun, hrights, hR'⟩ := ih hR₁ hallowed.2
    refine ⟨s', output :: outputs, ?_, ⟨hright, hrights⟩, hR'⟩
    rw [run_cons hstep, hrun]
    rfl

/-- Every step of a run meets a condition on its input and the state before it. -/
def Meets (step : σ → ι → Option (σ × ο)) (C : σ → ι → Prop) : σ → List ι → Prop
  | _, [] => True
  | s, input :: inputs => C s input ∧ ∀ s' output, step s input = some (s', output) →
      Meets step C s' inputs

/-- A condition on the inputs of a run is met at every step. -/
theorem Meets.and_forall {C : σ → ι → Prop} {D : ι → Prop} {s : σ} {inputs : List ι}
    (h : Meets step C s inputs) (hD : ∀ input ∈ inputs, D input) :
    Meets step (fun s input => C s input ∧ D input) s inputs := by
  induction inputs generalizing s with
  | nil => trivial
  | cons input inputs ih =>
    refine ⟨⟨h.1, hD input List.mem_cons_self⟩, fun s' output hstep => ?_⟩
    exact ih (h.2 s' output hstep) fun i hi => hD i (List.mem_cons_of_mem _ hi)

/-- The first step of a run that returns. -/
theorem run_cons_eq_some {s t : σ} {input : ι} {inputs : List ι} {outputs : List ο}
    (h : run step s (input :: inputs) = some (t, outputs)) :
    ∃ s' output outputs', step s input = some (s', output) ∧
      run step s' inputs = some (t, outputs') ∧ outputs = output :: outputs' := by
  rw [run] at h
  cases hstep : step s input with
  | none => simp [hstep] at h
  | some result =>
    obtain ⟨s', output⟩ := result
    simp only [hstep, Option.map_eq_some_iff, Prod.mk.injEq] at h
    obtain ⟨⟨t', outputs'⟩, hrun, rfl, rfl⟩ := h
    exact ⟨s', output, outputs', rfl, hrun, rfl⟩

/-- The two parts of a run. -/
theorem run_append_eq_some {s t : σ} {before after : List ι} {outputs : List ο}
    (h : run step s (before ++ after) = some (t, outputs)) :
    ∃ s' outputs₁ outputs₂, run step s before = some (s', outputs₁) ∧
      run step s' after = some (t, outputs₂) := by
  induction before generalizing s outputs with
  | nil => exact ⟨s, [], outputs, rfl, h⟩
  | cons input inputs ih =>
    obtain ⟨s₁, output, rest, hstep, hrest, -⟩ := run_cons_eq_some h
    obtain ⟨s', outputs₁, outputs₂, hbefore, hafter⟩ := ih hrest
    refine ⟨s', output :: outputs₁, outputs₂, ?_, hafter⟩
    rw [run_cons hstep, hbefore]
    rfl

/-- The second part of a run meets the condition from where the first ends. -/
theorem Meets.right {C : σ → ι → Prop} {s t : σ} {before after : List ι} {outputs : List ο}
    (h : Meets step C s (before ++ after)) (hrun : run step s before = some (t, outputs)) :
    Meets step C t after := by
  induction before generalizing s outputs with
  | nil =>
    obtain ⟨rfl, -⟩ := Prod.mk.inj (Option.some.inj hrun)
    exact h
  | cons input inputs ih =>
    obtain ⟨s₁, output, rest, hstep, hrest, -⟩ := run_cons_eq_some hrun
    exact ih (h.2 s₁ output hstep) hrest

/-- The first part of a run meets the condition. -/
theorem Meets.left {C : σ → ι → Prop} {s : σ} {before after : List ι}
    (h : Meets step C s (before ++ after)) : Meets step C s before := by
  induction before generalizing s with
  | nil => trivial
  | cons input inputs ih => exact ⟨h.1, fun s' output hstep => ih (h.2 s' output hstep)⟩

/-- The state of a specification behind the inputs and outputs of a run. -/
def follow (next : τ → ι → ο → τ) : τ → List ι → List ο → τ
  | t, input :: inputs, output :: outputs => follow next (next t input output) inputs outputs
  | t, _, _ => t

/-- If every step from related states that meets the condition returns and ends in related states,
then so does a whole run. -/
theorem run_follow {C : σ → ι → Prop} {next : τ → ι → ο → τ} {R : σ → τ → Prop}
    (hstep : ∀ s t input, R s t → C s input →
      ∃ s' output, step s input = some (s', output) ∧ R s' (next t input output))
    {s : σ} {t : τ} {inputs : List ι} (hR : R s t) (hmeets : Meets step C s inputs) :
    ∃ s' outputs, run step s inputs = some (s', outputs) ∧ R s' (follow next t inputs outputs) := by
  induction inputs generalizing s t with
  | nil => exact ⟨s, [], rfl, hR⟩
  | cons input inputs ih =>
    obtain ⟨s₁, output, hs₁, hR₁⟩ := hstep s t input hR hmeets.1
    obtain ⟨s', outputs, hrun, hR'⟩ := ih hR₁ (hmeets.2 s₁ output hs₁)
    refine ⟨s', output :: outputs, ?_, hR'⟩
    rw [run_cons hs₁, hrun]
    rfl

/-- What every step that meets the condition keeps, a whole run keeps. -/
theorem run_invariant {C : σ → ι → Prop} {I : σ → Prop}
    (hstep : ∀ s s' input output, I s → C s input → step s input = some (s', output) → I s')
    {s t : σ} {inputs : List ι} {outputs : List ο} (hI : I s) (hmeets : Meets step C s inputs)
    (hrun : run step s inputs = some (t, outputs)) : I t := by
  induction inputs generalizing s outputs with
  | nil =>
    obtain ⟨rfl, -⟩ := Prod.mk.inj (Option.some.inj hrun)
    exact hI
  | cons input inputs ih =>
    obtain ⟨s', output, outputs', hinput, hrest, -⟩ := run_cons_eq_some hrun
    exact ih (hstep s s' input output hI hmeets.1 hinput) (hmeets.2 s' output hinput) hrest

/-- Every step of a run returns a right output and ends in related states. -/
def Tracks (step : σ → ι → Option (σ × ο)) (S : Spec τ ι ο) (R : σ → τ → Prop) :
    σ → τ → List ι → Prop
  | _, _, [] => True
  | s, t, input :: inputs => ∃ s' output, step s input = some (s', output) ∧
      S.right t input output ∧ R s' (S.next t input) ∧
      Tracks step S R s' (S.next t input) inputs

/-- If a step from related states tracks the specification exactly when its input is allowed, then
so does a whole run. -/
theorem tracks_iff_allowed (hstep : ∀ s t input, R s t →
      ((∃ s' output, step s input = some (s', output) ∧ S.right t input output ∧
        R s' (S.next t input)) ↔ S.allowed t input))
    {s : σ} {t : τ} {inputs : List ι} (hR : R s t) :
    Tracks step S R s t inputs ↔ S.Allowed t inputs := by
  induction inputs generalizing s t with
  | nil => exact Iff.rfl
  | cons input inputs ih =>
    constructor
    · rintro ⟨s', output, hs', hright, hR', htracks⟩
      exact ⟨(hstep s t input hR).mp ⟨s', output, hs', hright, hR'⟩, (ih hR').mp htracks⟩
    · rintro ⟨hallowed, hrest⟩
      obtain ⟨s', output, hs', hright, hR'⟩ := (hstep s t input hR).mpr hallowed
      exact ⟨s', output, hs', hright, hR', (ih hR').mpr hrest⟩

end Refinement
