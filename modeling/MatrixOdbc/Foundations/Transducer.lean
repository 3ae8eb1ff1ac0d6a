import Mathlib.Data.List.Basic
import Mathlib.Algebra.Order.Ring.Int
import Mathlib.Tactic.Common

/-!
# Transducers

A machine that reads a text from place to place and puts marks on it. What it does at a
place depends on its state and the text from there on, never on what is in front, so that a
text is read the same wherever it stands.
-/

namespace MatrixOdbc.Foundations

/-- At a place the machine looks at the text from there on; it says in which state it goes
on, how many further units belong to the place, and which marks are put there. -/
structure Transducer (σ α κ : Type*) where
  step : σ → α → List α → σ × ℕ × List κ

namespace Transducer

variable {σ α κ : Type*} (T : Transducer σ α κ)

/-- The marks of a text that begins at an offset, with their offsets. -/
def run (s : σ) (offset : ℕ) : List α → List (κ × ℕ)
  | [] => []
  | c :: rest =>
    (T.step s c rest).2.2.map (fun mark => (mark, offset)) ++
      run (T.step s c rest).1 (offset + 1 + (T.step s c rest).2.1)
        (rest.drop (T.step s c rest).2.1)
  termination_by text => text.length
  decreasing_by simp only [List.length_drop, List.length_cons]; omega

/-- The state behind a text. -/
def final (s : σ) : List α → σ
  | [] => s
  | c :: rest => final (T.step s c rest).1 (rest.drop (T.step s c rest).2.1)
  termination_by text => text.length
  decreasing_by simp only [List.length_drop, List.length_cons]; omega

variable {T} {s next : σ} {c : α} {rest text behind : List α} {offset skipped : ℕ}
  {marks : List κ}

@[simp] theorem run_nil : T.run s offset [] = [] := by
  rw [run]

@[simp] theorem final_nil : T.final s [] = s := by
  rw [final]

theorem run_cons (h : T.step s c rest = (next, skipped, marks)) :
    T.run s offset (c :: rest) =
      marks.map (fun mark => (mark, offset)) ++
        T.run next (offset + 1 + skipped) (rest.drop skipped) := by
  rw [run, h]

theorem final_cons (h : T.step s c rest = (next, skipped, marks)) :
    T.final s (c :: rest) = T.final next (rest.drop skipped) := by
  rw [final, h]

/-- States that agree at the first place read the text alike. -/
theorem run_congr {s' : σ} (h : T.step s c rest = T.step s' c rest) :
    T.run s offset (c :: rest) = T.run s' offset (c :: rest) := by
  rw [run, run, h]

theorem final_congr {s' : σ} (h : T.step s c rest = T.step s' c rest) :
    T.final s (c :: rest) = T.final s' (c :: rest) := by
  rw [final, final, h]

/-- Induction along the places of a text. -/
theorem places_induction {motive : σ → List α → Prop} (nil : ∀ s, motive s [])
    (cons : ∀ s c rest, motive (T.step s c rest).1 (rest.drop (T.step s c rest).2.1) →
      motive s (c :: rest)) (s : σ) (text : List α) : motive s text := by
  induction hlength : text.length using Nat.strongRecOn generalizing s text with
  | ind length ih =>
    cases text with
    | nil => exact nil s
    | cons c rest =>
      apply cons
      refine ih _ ?_ _ _ rfl
      rw [← hlength, List.length_drop, List.length_cons]
      omega

/-- A shift of the offsets. -/
theorem run_shift (s : σ) (text : List α) (offset shift : ℕ) :
    T.run s (shift + offset) text =
      (T.run s offset text).map fun mark => (mark.1, shift + mark.2) := by
  induction s, text using T.places_induction generalizing offset with
  | nil s => simp
  | cons s c rest ih =>
    rw [run, run, List.map_append, List.map_map, ← ih, Nat.add_assoc, Nat.add_assoc, Nat.add_assoc]
    rfl

/-- The marks stand inside the text. -/
theorem run_inside {mark : κ × ℕ} (h : mark ∈ T.run s offset text) :
    offset ≤ mark.2 ∧ mark.2 < offset + text.length := by
  induction s, text using T.places_induction generalizing offset with
  | nil s => simp at h
  | cons s c rest ih =>
    rw [run, List.mem_append] at h
    rw [List.length_cons]
    obtain hhere | hbehind := h
    · obtain ⟨kind, -, rfl⟩ := List.mem_map.mp hhere
      omega
    · have hinside := ih hbehind
      rw [List.length_drop] at hinside
      omega

variable (T) in
/-- No place of the text is read otherwise because of what is behind the text. -/
inductive Local (behind : List α) : σ → List α → Prop
  | nil (s : σ) : Local behind s []
  | cons {s : σ} {c : α} {rest : List α}
      (step : T.step s c (rest ++ behind) = T.step s c rest)
      (inside : (T.step s c rest).2.1 ≤ rest.length)
      (further : Local behind (T.step s c rest).1 (rest.drop (T.step s c rest).2.1)) :
      Local behind s (c :: rest)

/-- The marks of a text are those of its parts. -/
theorem Local.run_append (h : T.Local behind s text) :
    T.run s offset (text ++ behind) =
      T.run s offset text ++ T.run (T.final s text) (offset + text.length) behind := by
  induction h generalizing offset with
  | nil s => simp
  | @cons s c rest hstep hinside hrest ih =>
    rw [List.cons_append, run, hstep, List.drop_append_of_le_length hinside, ih, run, final,
      List.append_assoc, List.length_drop, List.length_cons]
    have hoffset : offset + 1 + (T.step s c rest).2.1 + (rest.length - (T.step s c rest).2.1) =
        offset + (rest.length + 1) := by omega
    rw [hoffset]

variable (T) in
/-- The machine that begins with a text comes to a place, in a state. -/
inductive Visits : σ → List α → σ → List α → Prop
  | here (s : σ) (text : List α) : Visits s text s text
  | further {s s' : σ} {c : α} {rest text' : List α}
      (behind : Visits (T.step s c rest).1 (rest.drop (T.step s c rest).2.1) s' text') :
      Visits s (c :: rest) s' text'

theorem visits_cons_iff {s' : σ} {text' : List α} :
    T.Visits s (c :: rest) s' text' ↔ (s' = s ∧ text' = c :: rest) ∨
      T.Visits (T.step s c rest).1 (rest.drop (T.step s c rest).2.1) s' text' := by
  constructor
  · intro h
    cases h with
    | here => exact Or.inl ⟨rfl, rfl⟩
    | further behind => exact Or.inr behind
  · rintro (⟨rfl, rfl⟩ | behind)
    · exact .here _ _
    · exact .further behind

/-- The offsets of some marks strictly increase exactly if no place gets two of them. -/
theorem pairwise_offsets_iff (p : κ → Bool) (s : σ) (text : List α) (offset : ℕ) :
    (((T.run s offset text).filter fun mark => p mark.1).map Prod.snd).Pairwise (· < ·) ↔
      ∀ s' c rest, T.Visits s text s' (c :: rest) →
        ((T.step s' c rest).2.2.filter p).length ≤ 1 := by
  induction s, text using T.places_induction generalizing offset with
  | nil s =>
    rw [run_nil]
    refine iff_of_true List.Pairwise.nil fun s' c rest h => ?_
    cases h
  | cons s c rest ih =>
    have hhere : (((T.step s c rest).2.2.map fun mark => (mark, offset)).filter
        fun mark => p mark.1).map Prod.snd =
          List.replicate ((T.step s c rest).2.2.filter p).length offset := by
      rw [List.filter_map, List.map_map, List.eq_replicate_iff]
      refine ⟨by simp [Function.comp_def], fun x hx => ?_⟩
      obtain ⟨mark, -, rfl⟩ := List.mem_map.mp hx
      rfl
    have hlater : ∀ x ∈ ((T.run (T.step s c rest).1 (offset + 1 + (T.step s c rest).2.1)
        (rest.drop (T.step s c rest).2.1)).filter fun mark => p mark.1).map Prod.snd, offset < x := by
      intro x hx
      obtain ⟨mark, hmark, rfl⟩ := List.mem_map.mp hx
      have hinside := run_inside (List.mem_filter.mp hmark).1
      omega
    rw [run, List.filter_append, List.map_append, hhere, List.pairwise_append, ih,
      List.pairwise_replicate]
    constructor
    · rintro ⟨hone, hbehind, -⟩ s' c' rest' hvisits
      obtain ⟨rfl, hplace⟩ | hvisits := visits_cons_iff.mp hvisits
      · obtain ⟨rfl, rfl⟩ := List.cons.inj hplace
        exact hone.resolve_right (Nat.lt_irrefl _)
      · exact hbehind s' c' rest' hvisits
    · intro h
      refine ⟨Or.inl (h s c rest (.here _ _)), fun s' c' rest' hvisits => ?_, ?_⟩
      · exact h s' c' rest' (.further hvisits)
      · intro x hx y hy
        rw [List.eq_of_mem_replicate hx]
        exact hlater y hy

end Transducer

end MatrixOdbc.Foundations
