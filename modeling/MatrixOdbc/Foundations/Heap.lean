import MatrixOdbc.Foundations.Buffer

/-!
# Heaps of blocks

A heap is the list of its blocks in the order of their allocation. A block that has been freed
is never given out again, so a pointer into it stays one into no block. Copies between blocks
fail when they leave a block.
-/

/-- A block and an offset in it. -/
structure Ptr where
  block : ℕ
  offset : ℕ
  deriving DecidableEq

/-- The blocks in the order of their allocation; `none` has been freed. -/
abbrev BlockHeap (α : Type*) := List (Option (List α))

namespace BlockHeap

variable {α : Type*} {heap heap' : BlockHeap α} {content : List α} {b c n : ℕ} {p q : Ptr}

/-- The content of a block. -/
def block (heap : BlockHeap α) (b : ℕ) : Option (List α) := heap[b]?.join

/-- A new block; it is the one behind the others. -/
def alloc (heap : BlockHeap α) (content : List α) : BlockHeap α := heap ++ [some content]

/-- A block with another content. -/
def put (heap : BlockHeap α) (b : ℕ) (content : List α) : BlockHeap α := heap.set b (some content)

/-- A block is given back. -/
def free (heap : BlockHeap α) (b : ℕ) : BlockHeap α := heap.set b none

/-- `realloc`: a new block begins with what was in the old one. -/
def realloc (heap : BlockHeap α) (b : Option ℕ) (size : ℕ) (fill : α) : BlockHeap α :=
  match b with
  | none => heap.alloc (List.replicate size fill)
  | some b =>
    let old := ((heap.block b).getD []).take size
    alloc (heap.free b) (old ++ List.replicate (size - old.length) fill)

/-- What is at a pointer, if so much is in the block. -/
def read (heap : BlockHeap α) (p : Ptr) (n : ℕ) : Option (List α) :=
  (heap.block p.block).bind fun content =>
    if p.offset + n ≤ content.length then some ((content.drop p.offset).take n) else none

/-- A store at a pointer, if there is room in the block. -/
def write (heap : BlockHeap α) (p : Ptr) (xs : List α) : Option (BlockHeap α) :=
  (heap.block p.block).bind fun content =>
    if p.offset + xs.length ≤ content.length then
      some (heap.put p.block (Buffer.store content p.offset xs))
    else none

/-- `memcpy`. -/
def memcpy (heap : BlockHeap α) (target source : Ptr) (n : ℕ) : Option (BlockHeap α) :=
  (heap.read source n).bind (heap.write target)

/-- A block with a content has been allocated. -/
theorem lt_length_of_block (h : heap.block b = some content) : b < heap.length := by
  by_contra hge
  rw [block, List.getElem?_eq_none (Nat.le_of_not_lt hge)] at h
  cases h

@[simp] theorem block_alloc_self : (heap.alloc content).block heap.length = some content := by
  simp [block, alloc]

/-- The other blocks stay. -/
theorem block_alloc_of_ne (h : b ≠ heap.length) : (heap.alloc content).block b = heap.block b := by
  unfold block alloc
  by_cases hlt : b < heap.length
  · rw [List.getElem?_append_left hlt]
  · have hout : (heap ++ [some content]).length ≤ b := by
      rw [List.length_append, List.length_singleton]
      omega
    rw [List.getElem?_eq_none hout, List.getElem?_eq_none (Nat.le_of_not_lt hlt)]

/-- What is allocated stays when a block is added. -/
theorem block_alloc_of_some {xs : List α} (h : heap.block b = some xs) :
    (heap.alloc content).block b = some xs := by
  rw [block_alloc_of_ne (Nat.ne_of_lt (lt_length_of_block h)), h]

theorem block_put_self (h : b < heap.length) : (heap.put b content).block b = some content := by
  simp [block, put, h]

theorem block_put_of_ne (h : b ≠ c) : (heap.put c content).block b = heap.block b := by
  rw [block, put, List.getElem?_set_ne (Ne.symm h), block]

@[simp] theorem length_alloc : (heap.alloc content).length = heap.length + 1 := by simp [alloc]

theorem block_free_of_ne (h : b ≠ c) : (heap.free c).block b = heap.block b := by
  rw [block, free, List.getElem?_set_ne (Ne.symm h), block]

@[simp] theorem length_free : (heap.free b).length = heap.length := List.length_set

/-- `realloc` gives a block that begins with what was in the old one. -/
theorem block_realloc_self (old : Option ℕ) (fill : α) :
    (heap.realloc old n fill).block heap.length =
      some (((old.bind heap.block).getD []).take n ++
        List.replicate (n - (((old.bind heap.block).getD []).take n).length) fill) := by
  cases old with
  | none => simp [realloc]
  | some old =>
    have h := @block_alloc_self _ (heap.free old)
    rw [length_free] at h
    rw [realloc, h]
    rfl

/-- `realloc` gives a block of the size. -/
theorem size_realloc {old : Option ℕ} {fill : α} :
    ((heap.realloc old n fill).block heap.length).map List.length = some n := by
  cases old with
  | none => simp [realloc]
  | some old =>
    have h := @block_alloc_self _ (heap.free old)
    rw [length_free] at h
    rw [realloc, h, Option.map_some, List.length_append, List.length_replicate, List.length_take]
    exact congrArg some (by omega)

/-- `realloc` keeps the blocks other than the old one. -/
theorem block_realloc_of_ne {old : Option ℕ} {fill : α} (h : b ≠ heap.length)
    (hold : ∀ c ∈ old, b ≠ c) : (heap.realloc old n fill).block b = heap.block b := by
  cases old with
  | none => exact block_alloc_of_ne h
  | some c => rw [realloc, block_alloc_of_ne (by rwa [length_free]), block_free_of_ne (hold c rfl)]

/-- The last of two stores counts. -/
@[simp] theorem put_put {xs : List α} : (heap.put b xs).put b content = heap.put b content :=
  List.set_set ..

/-- A store into the block that has been added. -/
@[simp] theorem put_alloc {xs : List α} :
    (heap.alloc xs).put heap.length content = heap.alloc content := by
  simp [put, alloc]

theorem read_eq (h : heap.block p.block = some content) (hn : p.offset + n ≤ content.length) :
    heap.read p n = some ((content.drop p.offset).take n) := by
  rw [read, h, Option.bind_some, if_pos hn]

theorem write_eq {xs : List α} (h : heap.block p.block = some content)
    (hn : p.offset + xs.length ≤ content.length) :
    heap.write p xs = some (heap.put p.block (Buffer.store content p.offset xs)) := by
  rw [write, h, Option.bind_some, if_pos hn]

/-- A store keeps the sizes of the blocks. -/
theorem length_block_write {xs : List α} (h : heap.write p xs = some heap') :
    ((heap'.block b).map List.length) = (heap.block b).map List.length := by
  unfold write at h
  obtain ⟨content, hcontent, h⟩ := Option.bind_eq_some_iff.mp h
  split_ifs at h with hn
  cases h
  by_cases hb : b = p.block
  · rw [hb, block_put_self (lt_length_of_block hcontent), hcontent, Option.map_some,
      Option.map_some, Buffer.length_store hn]
  · rw [block_put_of_ne hb]

/-- A store keeps the other blocks. -/
theorem block_write_of_ne {xs : List α} (h : heap.write p xs = some heap') (hb : b ≠ p.block) :
    heap'.block b = heap.block b := by
  unfold write at h
  obtain ⟨content, hcontent, h⟩ := Option.bind_eq_some_iff.mp h
  split_ifs at h with hn
  cases h
  exact block_put_of_ne hb

/-- A copy keeps the sizes of the blocks and the blocks other than its target. -/
theorem memcpy_spec (h : heap.memcpy p q n = some heap') :
    (∀ b, (heap'.block b).map List.length = (heap.block b).map List.length) ∧
      ∀ b, b ≠ p.block → heap'.block b = heap.block b := by
  obtain ⟨xs, -, hwrite⟩ := Option.bind_eq_some_iff.mp h
  exact ⟨fun _ => length_block_write hwrite, fun _ => block_write_of_ne hwrite⟩

/-- A copy to the front of a block. -/
theorem memcpy_front {xs : List α} {source : ℕ} (hto : heap.block b = some content)
    (hsource : heap.block source = some xs) (hn : n ≤ xs.length) (hn' : n ≤ content.length) :
    heap.memcpy ⟨b, 0⟩ ⟨source, 0⟩ n = some (heap.put b (xs.take n ++ content.drop n)) := by
  have hlength : (xs.take n).length = n := by
    rw [List.length_take, Nat.min_eq_left hn]
  have hread : heap.read ⟨source, 0⟩ n = some (xs.take n) := by
    rw [read_eq hsource (by simpa using hn), List.drop_zero]
  rw [memcpy, hread, Option.bind_some, write_eq hto (by simpa [hlength] using hn'),
    Buffer.store_zero, hlength]

end BlockHeap
