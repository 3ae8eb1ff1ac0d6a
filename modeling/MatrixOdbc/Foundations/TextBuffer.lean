import Mathlib.Data.Int.Order.Basic
import Mathlib.Data.List.TakeDrop
import Mathlib.Tactic.Common

/-!
# Texts returned in buffers

A caller offers a buffer of some size, or none, and may ask for the length. A call that
returns a text stores as much of it as fits with a terminator behind, reports the length of
the whole text, and says if the text was cut.
-/

namespace TextBuffer

variable {α : Type*} {nul : α} {text : List α} {unit rep : ℤ}

/-- What a caller offers: if the buffer is there, the characters that it has room for, and if the
length is asked for. -/
structure Offer where
  given : Bool
  room : ℤ
  lenGiven : Bool

/-- What a call leaves behind: the characters stored at the front of the buffer, the length
reported, and if it warns that the text was cut. -/
structure Output (α : Type*) where
  stored : Option (List α)
  length : Option ℤ
  truncated : Bool

/-- A call does not accept its arguments, has no defined behavior, or ends. -/
inductive Outcome (α : Type*) where
  | refused (sqlstate : Option String)
  | undefined
  | done (output : Output α)

/-- The longest prefix of the text that fits, with its terminator. -/
def fitting (nul : α) (text : List α) (room : ℤ) : List α :=
  text.take (room - 1).toNat ++ [nul]

/-- The text with its terminator does not fit in the buffer that is there. -/
def Offer.Cuts (offer : Offer) (text : List α) : Prop :=
  offer.given = true ∧ offer.room ≤ text.length

/-- The contract of a call that returns a text, with the length counted in parts of a character. -/
structure Output.Meets (nul : α) (text : List α) (unit : ℤ) (offer : Offer) (o : Output α) :
    Prop where
  /-- Only a buffer that is there is written, and only inside. -/
  inside : ∀ xs, o.stored = some xs → offer.given = true ∧ (xs.length : ℤ) ≤ offer.room
  /-- A buffer with room for a character holds the longest prefix that fits. -/
  filled : offer.given = true → 1 ≤ offer.room → o.stored = some (fitting nul text offer.room)
  /-- The length reported is the one of the whole text. -/
  reported : offer.lenGiven = true → o.length = some (unit * text.length)
  /-- There is a warning only if the text was cut. -/
  warranted : o.truncated = true → offer.Cuts text
  /-- There is a warning if a buffer with room for a character cuts the text. -/
  warned : 1 ≤ offer.room → offer.Cuts text → o.truncated = true

/-- The contract for every way in which a call can end. -/
def Outcome.Meets (nul : α) (text : List α) (unit : ℤ) (offer : Offer) : Outcome α → Prop
  | .refused _ => True
  | .undefined => False
  | .done o => o.Meets nul text unit offer

@[simp] theorem not_meets_undefined {offer : Offer} :
    ¬ (Outcome.undefined : Outcome α).Meets nul text unit offer := id

@[simp] theorem meets_refused {offer : Offer} {sqlstate : Option String} :
    (Outcome.refused sqlstate : Outcome α).Meets nul text unit offer := trivial

@[simp] theorem meets_done {offer : Offer} {o : Output α} :
    (Outcome.done o).Meets nul text unit offer ↔ o.Meets nul text unit offer := Iff.rfl

/-- The output of a call that stores the longest prefix that fits or nothing. -/
def output (nul : α) (text : List α) (offer : Offer) (copies cuts : Bool) (rep : ℤ) : Output α where
  stored := if copies then some (fitting nul text offer.room) else none
  length := if offer.lenGiven then some rep else none
  truncated := cuts

/-- Such a call meets the contract if it copies, reports and warns as it should. -/
theorem output_meets_iff {offer : Offer} {copies cuts : Bool} :
    (output nul text offer copies cuts rep).Meets nul text unit offer ↔
      (copies = true ↔ offer.given = true ∧ 1 ≤ offer.room) ∧
        (offer.lenGiven = true → rep = unit * text.length) ∧
        (cuts = true → offer.Cuts text) ∧
        (1 ≤ offer.room → offer.Cuts text → cuts = true) := by
  constructor
  · intro h
    refine ⟨⟨fun hcopies => ?_, ?_⟩, fun hlen => ?_, h.warranted, h.warned⟩
    · obtain ⟨hgiven, hle⟩ := h.inside _ (if_pos hcopies)
      rw [fitting, List.length_append, List.length_singleton] at hle
      exact ⟨hgiven, by omega⟩
    · rintro ⟨hgiven, hroom⟩
      have hfilled := h.filled hgiven hroom
      by_contra hnot
      rw [output, if_neg hnot] at hfilled
      exact absurd hfilled (by simp)
    · have hreported := h.reported hlen
      rw [output, if_pos hlen] at hreported
      exact Option.some.inj hreported
  · rintro ⟨hcopies, hlen, hwarranted, hwarned⟩
    refine ⟨fun xs hxs => ?_, fun hgiven hroom => if_pos (hcopies.mpr ⟨hgiven, hroom⟩),
      fun hasked => ?_, hwarranted, hwarned⟩
    · by_cases hstored : copies = true
      · obtain ⟨hgiven, hroom⟩ := hcopies.mp hstored
        rw [output, if_pos hstored] at hxs
        obtain rfl := Option.some.inj hxs
        refine ⟨hgiven, ?_⟩
        rw [fitting, List.length_append, List.length_take, List.length_singleton]
        omega
      · rw [output, if_neg hstored] at hxs
        exact absurd hxs (by simp)
    · rw [output, if_pos hasked, hlen hasked]

end TextBuffer
