import MatrixOdbc.Foundations.Buffer

/-!
# The growing buffer `tempBuf`

`tempBuf` of `driver/parse.h` and `driver/utility.cc`: memory that is allocated on
demand, with a position up to which it is filled. `reset` moves the position back and
keeps the memory, so an empty buffer and a buffer without memory are different things.
-/

namespace MatrixOdbc.Util

/-- `tempBuf`: the memory, if any has been allocated, and the position in it. -/
structure TempBuf where
  buf : Option (List UInt8)
  curPos : ℕ
  pos_le : curPos ≤ (buf.getD []).length

namespace TempBuf

/-- `buf_len`. -/
def bufLen (t : TempBuf) : ℕ := (t.buf.getD []).length

/-- `tempBuf(0)`: no memory yet. -/
def empty : TempBuf := ⟨none, 0, Nat.zero_le _⟩

/-- `reset`. -/
def reset (t : TempBuf) : TempBuf := ⟨t.buf, 0, Nat.zero_le _⟩

/-- `extend_buffer`. What `realloc` adds has no defined content; nothing reads it. -/
def extendBuffer (t : TempBuf) (len : ℕ) : TempBuf :=
  if t.bufLen - t.curPos < len then
    { t with
      buf := some (t.buf.getD [] ++ List.replicate len 0)
      pos_le := by
        have := t.pos_le
        simp only [Option.getD_some, List.length_append]
        omega }
  else t

/-- How much `add_to_buffer` asks for. -/
def extendBy (t : TempBuf) (len : ℕ) : ℕ :=
  if len ≤ t.bufLen - t.curPos then 0 else t.bufLen - t.curPos + len

/-- The memory that `add_to_buffer` writes to. -/
def memoryFor (t : TempBuf) (len : ℕ) : Option (List UInt8) := (t.extendBuffer (t.extendBy len)).buf

/-- Where there is room the memory is the old one. -/
theorem memoryFor_of_le {t : TempBuf} {len : ℕ} (h : len ≤ t.bufLen - t.curPos) :
    t.memoryFor len = t.buf := by
  simp [memoryFor, extendBuffer, extendBy, h]

/-- Where there is none the memory grows, and there is room. -/
theorem memoryFor_of_lt {t : TempBuf} {len : ℕ} (h : t.bufLen - t.curPos < len) :
    ∃ added, t.memoryFor len = some (t.buf.getD [] ++ added) ∧
      t.curPos + len ≤ (t.buf.getD [] ++ added).length := by
  refine ⟨List.replicate (t.extendBy len) 0, ?_, ?_⟩
  · have hgrow : t.bufLen - t.curPos < t.extendBy len := by
      rw [extendBy, if_neg (by omega)]
      omega
    rw [memoryFor, extendBuffer, if_pos hgrow]
  · have := t.pos_le
    rw [List.length_append, List.length_replicate, extendBy, if_neg (by omega), bufLen]
    omega

/-- There is room for what is added. -/
theorem memoryFor_fits (t : TempBuf) (len : ℕ) :
    t.curPos + len ≤ ((t.memoryFor len).getD []).length := by
  by_cases h : len ≤ t.bufLen - t.curPos
  · have := t.pos_le
    rw [memoryFor_of_le h]
    rw [bufLen] at h
    omega
  · obtain ⟨added, heq, hfits⟩ := memoryFor_of_lt (Nat.lt_of_not_le h)
    rwa [heq, Option.getD_some]

/-- `add_to_buffer`. -/
def addToBuffer (t : TempBuf) (chunk : List UInt8) : TempBuf where
  buf := (t.memoryFor chunk.length).map fun b => Buffer.store b t.curPos chunk
  curPos := t.curPos + chunk.length
  pos_le := by
    have hfits := t.memoryFor_fits chunk.length
    cases hbuf : t.memoryFor chunk.length with
    | none => simpa [hbuf] using hfits
    | some b =>
      rw [hbuf, Option.getD_some] at hfits
      simpa [Buffer.length_store hfits] using hfits

/-- What has been put into the buffer; nothing when it has no memory. -/
def value (t : TempBuf) : Option (List UInt8) := t.buf.map (List.take t.curPos)

/-- A value to which a chunk is added. An empty chunk does not make a value. -/
def accumulate (value : Option (List UInt8)) (chunk : List UInt8) : Option (List UInt8) :=
  if chunk = [] then value else some (value.getD [] ++ chunk)

@[simp] theorem value_empty : empty.value = none := rfl

/-- The memory stays, so the value becomes the empty one. -/
@[simp] theorem value_reset (t : TempBuf) : t.reset.value = t.value.map fun _ => [] := by
  cases hbuf : t.buf <;> simp [value, reset, hbuf]

/-- A store at the position, read up to the new position. -/
theorem take_store {b added chunk : List UInt8} {pos : ℕ} (h : pos ≤ b.length) :
    (Buffer.store (b ++ added) pos chunk).take (pos + chunk.length) = b.take pos ++ chunk := by
  have hpos : pos = (b.take pos).length := by
    rw [List.length_take]
    omega
  have hsplit : b ++ added = b.take pos ++ (b.drop pos ++ added) := by
    rw [← List.append_assoc, List.take_append_drop]
  rw [hsplit, Buffer.store_append hpos]
  exact List.take_left' (by rw [List.length_append, ← hpos])

/-- An added chunk stands behind what is in the buffer. -/
theorem value_addToBuffer (t : TempBuf) (chunk : List UInt8) :
    (t.addToBuffer chunk).value = accumulate t.value chunk := by
  have hpos := t.pos_le
  simp only [value, addToBuffer, Option.map_map, Function.comp_def]
  by_cases h : chunk.length ≤ t.bufLen - t.curPos
  · rw [memoryFor_of_le h]
    cases hbuf : t.buf with
    | none =>
      rw [bufLen, hbuf] at h
      have hnil : chunk = [] := List.length_eq_zero_iff.1 (by simpa using h)
      simp [accumulate, hnil]
    | some b =>
      rw [hbuf, Option.getD_some] at hpos
      have hstore := @take_store b [] chunk _ hpos
      rw [List.append_nil] at hstore
      by_cases hnil : chunk = [] <;> simp [accumulate, hnil, hstore]
  · obtain ⟨added, heq, -⟩ := memoryFor_of_lt (Nat.lt_of_not_le h)
    have hnil : chunk ≠ [] := by
      rintro rfl
      exact h (Nat.zero_le _)
    rw [heq, Option.map_some, take_store hpos, accumulate, if_neg hnil]
    cases hbuf : t.buf <;> simp

end TempBuf

end MatrixOdbc.Util
