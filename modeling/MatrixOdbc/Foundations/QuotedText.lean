import Mathlib.Data.List.Basic
import Mathlib.Tactic.Common

/-!
# Reading quoted text

The text between two quotes, over an arbitrary alphabet. Some units may form
characters of several units, which are taken as a whole; a quote is written
twice; an escape unit, if there is one, gives the next unit another meaning.
The reading relation is deterministic, and there is one rewriting rule for each
way a text can begin.
-/

namespace QuotedText

variable {α : Type*}

/-- How quoted text is read. `multi` is the length of the character of several
units that a text begins with, or 0. -/
structure Dialect (α : Type*) where
  multi : List α → ℕ
  quote : α
  escape : Option α
  unescape : α → List α
  allowed : α → Prop

/-- The text behind an opening quote is read as a value, up to the closing quote. -/
inductive Reads (D : Dialect α) : List α → List α → List α → Prop where
  | close {rest : List α} : D.multi (D.quote :: rest) = 0 → rest.head? ≠ some D.quote →
      Reads D (D.quote :: rest) [] rest
  | multi {text value rest : List α} : D.multi text ≠ 0 →
      Reads D (text.drop (D.multi text)) value rest →
      Reads D text (text.take (D.multi text) ++ value) rest
  | pair {text value rest : List α} : D.multi (D.quote :: D.quote :: text) = 0 →
      Reads D text value rest → Reads D (D.quote :: D.quote :: text) (D.quote :: value) rest
  | escaped {e c : α} {text value rest : List α} : D.escape = some e → e ≠ D.quote →
      D.multi (e :: c :: text) = 0 → Reads D text value rest →
      Reads D (e :: c :: text) (D.unescape c ++ value) rest
  | plain {c : α} {text value rest : List α} : D.multi (c :: text) = 0 → c ≠ D.quote →
      D.escape ≠ some c → D.allowed c → Reads D text value rest →
      Reads D (c :: text) (c :: value) rest

variable {D : Dialect α} {e c : α} {text value value' rest rest' : List α}

/-- A closing quote ends the value. -/
theorem reads_close_iff (hmulti : D.multi (D.quote :: text) = 0)
    (hhead : text.head? ≠ some D.quote) :
    Reads D (D.quote :: text) value rest ↔ value = [] ∧ rest = text := by
  constructor
  · intro h
    generalize htext : D.quote :: text = whole at h
    cases h with
    | close => simp_all
    | multi hne _ => exact absurd (htext ▸ hmulti) hne
    | pair => simp_all
    | escaped _ hne => simp_all
    | plain _ hne => simp_all
  · rintro ⟨rfl, rfl⟩
    exact .close hmulti hhead

/-- A character of several units is taken as a whole. -/
theorem reads_multi_iff (hmulti : D.multi text ≠ 0) :
    Reads D text value rest ↔ ∃ value', value = text.take (D.multi text) ++ value' ∧
      Reads D (text.drop (D.multi text)) value' rest := by
  constructor
  · intro h
    cases h with
    | close hzero => exact absurd hzero hmulti
    | multi _ htail => exact ⟨_, rfl, htail⟩
    | pair hzero => exact absurd hzero hmulti
    | escaped _ _ hzero => exact absurd hzero hmulti
    | plain hzero => exact absurd hzero hmulti
  · rintro ⟨value', rfl, htail⟩
    exact .multi hmulti htail

variable (value rest) in
/-- A quote written twice is one quote of the value. -/
theorem reads_pair_iff (hmulti : D.multi (D.quote :: D.quote :: text) = 0) :
    Reads D (D.quote :: D.quote :: text) value rest ↔
      ∃ value', value = D.quote :: value' ∧ Reads D text value' rest := by
  constructor
  · intro h
    generalize htext : D.quote :: D.quote :: text = whole at h
    cases h with
    | close _ hhead =>
      obtain rfl := (List.cons.inj htext).2
      simp at hhead
    | multi hne _ => exact absurd (htext ▸ hmulti) hne
    | pair => simp_all
    | escaped _ hne => simp_all
    | plain _ hne => simp_all
  · rintro ⟨value', rfl, htail⟩
    exact .pair hmulti htail

/-- An escape unit gives the next unit another meaning. -/
theorem reads_escaped_iff (hescape : D.escape = some e) (hne : e ≠ D.quote)
    (hmulti : D.multi (e :: c :: text) = 0) :
    Reads D (e :: c :: text) value rest ↔
      ∃ value', value = D.unescape c ++ value' ∧ Reads D text value' rest := by
  constructor
  · intro h
    generalize htext : e :: c :: text = whole at h
    cases h with
    | close => simp_all
    | multi hne _ => exact absurd (htext ▸ hmulti) hne
    | pair => simp_all
    | escaped _ _ _ htail =>
      obtain ⟨-, rfl, rfl⟩ := by simpa using htext
      exact ⟨_, rfl, htail⟩
    | plain _ _ hplain => simp_all
  · rintro ⟨value', rfl, htail⟩
    exact .escaped hescape hne hmulti htail

/-- Every other unit stands for itself. -/
theorem reads_plain_iff (hmulti : D.multi (c :: text) = 0) (hne : c ≠ D.quote)
    (hescape : D.escape ≠ some c) :
    Reads D (c :: text) value rest ↔
      D.allowed c ∧ ∃ value', value = c :: value' ∧ Reads D text value' rest := by
  constructor
  · intro h
    generalize htext : c :: text = whole at h
    cases h with
    | close => simp_all
    | multi hne _ => exact absurd (htext ▸ hmulti) hne
    | pair => simp_all
    | escaped => simp_all
    | plain _ _ _ hallowed htail =>
      obtain ⟨rfl, rfl⟩ := by simpa using htext
      exact ⟨hallowed, _, rfl, htail⟩
  · rintro ⟨hallowed, value', rfl, htail⟩
    exact .plain hmulti hne hescape hallowed htail

/-- A text is read in at most one way. -/
theorem Reads.unique (h : Reads D text value rest) (h' : Reads D text value' rest') :
    value = value' ∧ rest = rest' := by
  induction h generalizing value' rest' with
  | close hmulti hhead =>
    obtain ⟨rfl, rfl⟩ := (reads_close_iff hmulti hhead).mp h'
    exact ⟨rfl, rfl⟩
  | multi hmulti _ ih =>
    obtain ⟨value'', rfl, htail⟩ := (reads_multi_iff hmulti).mp h'
    obtain ⟨rfl, rfl⟩ := ih htail
    exact ⟨rfl, rfl⟩
  | pair hmulti _ ih =>
    obtain ⟨value'', rfl, htail⟩ := (reads_pair_iff _ _ hmulti).mp h'
    obtain ⟨rfl, rfl⟩ := ih htail
    exact ⟨rfl, rfl⟩
  | escaped hescape hne hmulti _ ih =>
    obtain ⟨value'', rfl, htail⟩ := (reads_escaped_iff hescape hne hmulti).mp h'
    obtain ⟨rfl, rfl⟩ := ih htail
    exact ⟨rfl, rfl⟩
  | plain hmulti hne hescape _ _ ih =>
    obtain ⟨-, value'', rfl, htail⟩ := (reads_plain_iff hmulti hne hescape).mp h'
    obtain ⟨rfl, rfl⟩ := ih htail
    exact ⟨rfl, rfl⟩

/-- A value is shorter than the text it is read from. -/
theorem Reads.length_lt (hunescape : ∀ c, (D.unescape c).length ≤ 2)
    (h : Reads D text value rest) : value.length + rest.length < text.length := by
  induction h with
  | close => simp
  | @multi text value rest _ _ ih =>
    have hsplit := congrArg List.length (List.take_append_drop (D.multi text) text)
    rw [List.length_append] at hsplit ⊢
    omega
  | pair _ _ ih =>
    simp only [List.length_cons]
    omega
  | @escaped e c text value rest _ _ _ _ ih =>
    have := hunescape c
    simp only [List.length_append, List.length_cons]
    omega
  | plain _ _ _ _ _ ih =>
    simp only [List.length_cons]
    omega

section Raw

variable (hle : ∀ t, D.multi t ≤ t.length) (hescape : D.escape = none)
include hle hescape

/-- A value that begins with a quote is read from a text that does. -/
theorem Reads.head?_eq_quote (h : Reads D text (D.quote :: value) rest) :
    text.head? = some D.quote := by
  generalize hwhole : D.quote :: value = whole at h
  cases h with
  | close => rfl
  | multi hmulti _ =>
    cases text with
    | nil => exact absurd (Nat.le_zero.mp (hle [])) hmulti
    | cons c text =>
      obtain ⟨k, hk⟩ := Nat.exists_eq_succ_of_ne_zero hmulti
      rw [hk, List.take_succ_cons, List.cons_append] at hwhole
      rw [List.head?_cons, (List.cons.inj hwhole).1]
  | pair => rfl
  | escaped hsome => simp [hescape] at hsome
  | plain _ hne => exact absurd (List.cons.inj hwhole).1.symm hne

variable (hquote : ∀ t, D.multi (D.quote :: t) = 0)
include hquote

/-- Quotes that are ahead of the text they were put in cannot be caught up with. -/
theorem not_reads_replicate_append (hhead : rest.head? ≠ some D.quote) (n : ℕ) :
    ¬ Reads D (text ++ D.quote :: rest) (List.replicate (n + 1) D.quote ++ text) rest' := by
  induction hlen : text.length using Nat.strongRecOn generalizing text n with
  | _ len ih =>
    intro h
    rw [List.replicate_succ, List.cons_append] at h
    have hfirst := h.head?_eq_quote hle hescape
    rcases text with - | ⟨c, - | ⟨c', text⟩⟩
    · exact absurd ((reads_close_iff (hquote rest) hhead).mp h).1 (List.cons_ne_nil _ _)
    · obtain rfl : c = D.quote := by simpa using hfirst
      obtain ⟨value', hvalue, htail⟩ := (reads_pair_iff _ _ (hquote _)).mp h
      obtain rfl : value' = D.quote :: List.replicate n D.quote := by
        rw [← List.replicate_succ, List.replicate_succ', (List.cons.inj hvalue).2]
      exact hhead (htail.head?_eq_quote hle hescape)
    · obtain rfl : c = D.quote := by simpa using hfirst
      by_cases hc' : c' = D.quote
      · subst hc'
        obtain ⟨value', hvalue, htail⟩ := (reads_pair_iff _ _ (hquote _)).mp h
        obtain rfl : value' = List.replicate (n + 1 + 1) D.quote ++ text := by
          rw [← (List.cons.inj hvalue).2, List.replicate_succ', List.replicate_succ']
          simp
        exact ih text.length (by simp only [List.length_cons] at hlen; omega) (n + 1) rfl htail
      · have hclose : (c' :: text ++ D.quote :: rest).head? ≠ some D.quote := by simpa using hc'
        exact absurd ((reads_close_iff (hquote _) hclose).mp h).1 (List.cons_ne_nil _ _)

/-- A single quote at the front of the text keeps it from being read as itself. -/
theorem not_reads_quote_cons (hhead : rest.head? ≠ some D.quote) :
    ¬ Reads D (D.quote :: text ++ D.quote :: rest) (D.quote :: text) rest' := by
  intro h
  rcases text with - | ⟨c, text⟩
  · obtain ⟨value', hvalue, htail⟩ := (reads_pair_iff _ _ (hquote _)).mp h
    obtain rfl := (List.cons.inj hvalue).2
    have hempty : rest.head? = some D.quote := by
      generalize hnil : ([] : List α) = value' at htail
      cases htail with
      | close => rfl
      | multi hmulti _ =>
        obtain ⟨htake, -⟩ := List.append_eq_nil_iff.mp hnil.symm
        have hlen := congrArg List.length htake
        have := hle rest
        rw [List.length_take, List.length_nil] at hlen
        omega
      | pair => exact absurd hnil.symm (List.cons_ne_nil _ _)
      | escaped hsome => simp [hescape] at hsome
      | plain => exact absurd hnil.symm (List.cons_ne_nil _ _)
    exact hhead hempty
  · by_cases hc : c = D.quote
    · subst hc
      obtain ⟨value', hvalue, htail⟩ := (reads_pair_iff _ _ (hquote _)).mp h
      obtain rfl := (List.cons.inj hvalue).2
      exact not_reads_replicate_append hle hescape hquote hhead 0 htail
    · have hclose : (c :: text ++ D.quote :: rest).head? ≠ some D.quote := by simpa using hc
      exact absurd ((reads_close_iff (hquote _) hclose).mp h).1 (List.cons_ne_nil _ _)

end Raw

end QuotedText
