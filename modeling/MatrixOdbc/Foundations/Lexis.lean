import Mathlib.Data.List.Basic
import Mathlib.Tactic.Common

/-!
# Lexical reading of a text

How quotes and comments divide a text, over an arbitrary alphabet. A text is read
from place to place: `read` says in which context the next place is read and how
many further units belong to this one. Everything that depends on the division of
a text is a property of the places that `scan` lists, such as the offsets of a mark
in plain text.
-/

namespace Lexis

/-- The delimiters of a language. The text of a transparent comment is read as if
its delimiters were blanks. -/
structure Lexicon (α : Type*) where
  quotes : List α
  escape : α
  lineOpens : List (List α)
  lineEnd : List α
  blockOpen : List α
  blockClose : List α
  transparentOpen : List α

/-- What the units at a place belong to; the flag tells whether the place is in the
text of a transparent comment. -/
inductive Context (α : Type*) where
  | plain (inside : Bool)
  | quoted (inside : Bool) (quote : α)
  | line (inside : Bool)
  | block (inside : Bool)
  deriving DecidableEq

/-- A place of a text: how it is read, its offset and the text from there on. -/
structure Place (α : Type*) where
  context : Context α
  offset : ℕ
  text : List α

namespace Lexicon

variable {α : Type*} [DecidableEq α] (L : Lexicon α)

/-- The context behind a place, and the number of units that are skipped. -/
def read : Context α → α → List α → Context α × ℕ
  | .plain inside, c, rest =>
    if c ∈ L.quotes then (.quoted inside c, 0)
    else if L.lineOpens.any (·.isPrefixOf (c :: rest)) then (.line inside, 0)
    else if L.transparentOpen.isPrefixOf (c :: rest) then (.plain true, 0)
    else if L.blockOpen.isPrefixOf (c :: rest) then (.block inside, L.blockOpen.length - 1)
    else if inside && L.blockClose.isPrefixOf (c :: rest) then
      (.plain false, L.blockClose.length - 1)
    else (.plain inside, 0)
  | .quoted inside quote, c, rest =>
    if c = L.escape then (.quoted inside quote, 1)
    else if c = quote then
      if rest.head? = some quote then (.quoted inside quote, 1) else (.plain inside, 0)
    else (.quoted inside quote, 0)
  | .line inside, c, rest =>
    if L.lineEnd.isPrefixOf (c :: rest) then (.plain inside, L.lineEnd.length - 1)
    else (.line inside, 0)
  | .block inside, c, rest =>
    if L.blockClose.isPrefixOf (c :: rest) then (.plain inside, L.blockClose.length - 1)
    else (.block inside, 0)

/-- The places of a text that begins at an offset in a context. -/
def scan (context : Context α) (offset : ℕ) : List α → List (Place α)
  | [] => []
  | c :: rest =>
    ⟨context, offset, c :: rest⟩ ::
      scan (L.read context c rest).1 (offset + 1 + (L.read context c rest).2)
        (rest.drop (L.read context c rest).2)
  termination_by text => text.length
  decreasing_by simp only [List.length_drop, List.length_cons]; omega

/-- The place is in plain text and shows the mark. -/
def isMark (mark : α) (place : Place α) : Bool :=
  match place.context with
  | .plain _ => place.text.head? == some mark
  | _ => false

/-- The offsets of the marks in the plain text. -/
def marksFrom (mark : α) (context : Context α) (offset : ℕ) (text : List α) : List ℕ :=
  ((L.scan context offset text).filter (isMark mark)).map Place.offset

/-- Every place of the text has a property. -/
def AllPlaces (P : Context α → List α → Prop) (context : Context α) (text : List α) : Prop :=
  ∀ place ∈ L.scan context 0 text, P place.context place.text

variable {L} {context next : Context α} {offset skipped : ℕ} {mark c : α} {text rest run : List α}

@[simp] theorem scan_nil : L.scan context offset [] = [] := by
  rw [scan]

theorem scan_cons (h : L.read context c rest = (next, skipped)) :
    L.scan context offset (c :: rest) =
      ⟨context, offset, c :: rest⟩ :: L.scan next (offset + 1 + skipped) (rest.drop skipped) := by
  rw [scan, h]

/-- A shift of the offsets. -/
theorem scan_offset (context : Context α) (offset : ℕ) (text : List α) :
    L.scan context offset text =
      (L.scan context 0 text).map fun place => { place with offset := offset + place.offset } := by
  induction hlen : text.length using Nat.strongRecOn generalizing context offset text with
  | ind length ih =>
    subst hlen
    cases text with
    | nil => simp
    | cons c rest =>
      rcases hread : L.read context c rest with ⟨next, skipped⟩
      have hlt : (rest.drop skipped).length < (c :: rest).length := by
        simp only [List.length_drop, List.length_cons]
        omega
      rw [scan_cons hread, scan_cons hread, ih _ hlt _ _ _ rfl, ih _ hlt _ (0 + 1 + skipped) _ rfl]
      simp only [List.map_cons, List.map_map, Nat.add_zero, List.cons.injEq, true_and]
      refine List.map_congr_left fun place _ => ?_
      simp only [Function.comp_apply, Place.mk.injEq, true_and, and_true]
      omega

/-- The offsets grow from place to place and stay in the text. -/
theorem scan_sorted (context : Context α) (offset : ℕ) (text : List α) :
    (L.scan context offset text).Pairwise (fun p q => p.offset < q.offset) ∧
      ∀ place ∈ L.scan context offset text,
        offset ≤ place.offset ∧ place.offset < offset + text.length := by
  induction hlen : text.length using Nat.strongRecOn generalizing context offset text with
  | ind length ih =>
    subst hlen
    cases text with
    | nil => simp
    | cons c rest =>
      rcases hread : L.read context c rest with ⟨next, skipped⟩
      have hlt : (rest.drop skipped).length < (c :: rest).length := by
        simp only [List.length_drop, List.length_cons]
        omega
      obtain ⟨hsorted, hbounds⟩ := ih _ hlt next (offset + 1 + skipped) _ rfl
      rw [scan_cons hread]
      refine ⟨List.pairwise_cons.mpr ⟨fun place hplace => ?_, hsorted⟩, fun place hplace => ?_⟩
      · have := hbounds place hplace
        show offset < place.offset
        omega
      · simp only [List.length_cons] at *
        rcases List.mem_cons.mp hplace with rfl | hplace
        · simp
        · have := hbounds place hplace
          simp only [List.length_drop] at this
          omega

@[simp] theorem marksFrom_nil : L.marksFrom mark context offset [] = [] := by
  simp [marksFrom]

/-- Every offset of a mark comes before the offsets of the marks behind it. -/
theorem marksFrom_sorted : (L.marksFrom mark context offset text).Pairwise (· < ·) :=
  List.pairwise_map.mpr ((scan_sorted context offset text).1.filter _)

/-- A mark lies in the text. -/
theorem lt_of_mem_marksFrom {n : ℕ} (h : n ∈ L.marksFrom mark context offset text) :
    n < offset + text.length := by
  obtain ⟨place, hplace, rfl⟩ := List.mem_map.mp h
  exact ((scan_sorted context offset text).2 place (List.mem_filter.mp hplace).1).2

/-- A place that is no mark. -/
theorem marksFrom_cons (h : L.read context c rest = (next, skipped))
    (hmark : isMark mark ⟨context, offset, c :: rest⟩ = false) :
    L.marksFrom mark context offset (c :: rest) =
      L.marksFrom mark next (offset + 1 + skipped) (rest.drop skipped) := by
  rw [marksFrom, scan_cons h, List.filter_cons_of_neg (by simp [hmark]), ← marksFrom]

/-- A mark. -/
theorem marksFrom_cons_mark {inside : Bool}
    (h : L.read (.plain inside) mark rest = (next, skipped)) :
    L.marksFrom mark (.plain inside) offset (mark :: rest) =
      offset :: L.marksFrom mark next (offset + 1 + skipped) (rest.drop skipped) := by
  rw [marksFrom, scan_cons h, List.filter_cons_of_pos (by simp [isMark]), List.map_cons,
    ← marksFrom]

section AllPlaces

variable {P : Context α → List α → Prop}

@[simp] theorem allPlaces_nil : L.AllPlaces P context [] := by
  simp [AllPlaces]

theorem allPlaces_iff : L.AllPlaces P context text ↔
    ∀ place ∈ L.scan context offset text, P place.context place.text := by
  rw [AllPlaces, scan_offset context offset]
  simp

/-- The first place and the places behind it. -/
theorem allPlaces_cons (h : L.read context c rest = (next, skipped)) :
    L.AllPlaces P context (c :: rest) ↔
      P context (c :: rest) ∧ L.AllPlaces P next (rest.drop skipped) := by
  rw [AllPlaces, scan_cons h, List.forall_mem_cons, ← allPlaces_iff]

end AllPlaces

variable (L context) in
/-- The unit neither leaves the context nor takes others with it. -/
def Inert (c : α) : Prop := ∀ rest, L.read context c rest = (context, 0)

/-- Units that stand for themselves and show no mark. -/
theorem marksFrom_append (hrun : ∀ c ∈ run, L.Inert context c)
    (hmark : ∀ c ∈ run, isMark mark ⟨context, 0, [c]⟩ = false) :
    L.marksFrom mark context offset (run ++ rest) =
      L.marksFrom mark context (offset + run.length) rest := by
  induction run generalizing offset with
  | nil => rfl
  | cons c run ih =>
    have hc : isMark mark ⟨context, offset, c :: (run ++ rest)⟩ = false := by
      simpa [isMark] using hmark c List.mem_cons_self
    rw [List.cons_append, marksFrom_cons (hrun c List.mem_cons_self _) hc, List.drop_zero,
      ih (fun c hc => hrun c (List.mem_cons_of_mem _ hc))
        (fun c hc => hmark c (List.mem_cons_of_mem _ hc)), List.length_cons]
    congr 1
    omega

/-- A property of all places holds behind units that stand for themselves. -/
theorem AllPlaces.of_append {P : Context α → List α → Prop} (hrun : ∀ c ∈ run, L.Inert context c)
    (h : L.AllPlaces P context (run ++ rest)) : L.AllPlaces P context rest := by
  induction run with
  | nil => exact h
  | cons c run ih =>
    rw [List.cons_append, allPlaces_cons (hrun c List.mem_cons_self _)] at h
    exact ih (fun c hc => hrun c (List.mem_cons_of_mem _ hc)) h.2

end Lexicon

end Lexis
