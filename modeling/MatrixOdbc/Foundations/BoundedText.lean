import Mathlib.Data.List.Basic
import Mathlib.Tactic.Common

/-!
# Texts in buffers of a fixed size

A text that is put together in a buffer, piece by piece, over an arbitrary alphabet with a
terminator. As long as there is room the text stands at the front of the buffer with the
terminator behind it. When the room is used up, the last place decides if what the buffer
holds is still terminated.
-/

namespace BoundedText

variable {α : Type*} {nul c : α} {buf text more rest : List α} {room : ℕ}

/-- The buffer holds the text, or its longest beginning that fits, in front of a terminator. -/
def Holds (nul : α) (buf text : List α) : Prop :=
  ∃ rest, buf = text.take (buf.length - 1) ++ nul :: rest

/-- The text stands in the buffer, with so much room from the terminator on. -/
def Open (nul : α) (buf text : List α) (room : ℕ) : Prop :=
  (∃ rest, buf = text ++ nul :: rest) ∧ text.length + room = buf.length

/-- The buffer is used up, and so many units of the text do not fit; at the last place there is
some unit. -/
def Closed (last : α) (buf text : List α) : Prop :=
  buf = text.take (buf.length - 1) ++ [last] ∧ buf.length ≤ text.length

theorem Open.room_pos (h : Open nul buf text room) : 0 < room := by
  obtain ⟨⟨rest, hbuf⟩, hroom⟩ := h
  have hlength := congrArg List.length hbuf
  rw [List.length_append, List.length_cons] at hlength
  omega

/-- A text that stands in the buffer is held by it. -/
theorem Open.holds (h : Open nul buf text room) : Holds nul buf text := by
  have hpos := h.room_pos
  obtain ⟨⟨rest, hbuf⟩, hroom⟩ := h
  refine ⟨rest, ?_⟩
  rw [List.take_of_length_le (by omega)]
  exact hbuf

/-- A buffer that is used up holds the text exactly if its last unit is the terminator. -/
theorem Closed.holds_iff (h : Closed c buf text) : Holds nul buf text ↔ c = nul := by
  constructor
  · rintro ⟨rest, hbuf⟩
    have hsame := h.1.symm.trans hbuf
    exact (List.cons.inj (List.append_cancel_left hsame)).1
  · rintro rfl
    exact ⟨[], h.1⟩

/-- What does not fit any more changes nothing. -/
theorem Closed.append (h : Closed c buf text) (more : List α) : Closed c buf (text ++ more) := by
  obtain ⟨hbuf, hle⟩ := h
  refine ⟨?_, ?_⟩
  · rw [List.take_append_of_le_length (by omega)]
    exact hbuf
  · rw [List.length_append]
    omega

end BoundedText
