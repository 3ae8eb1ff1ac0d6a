import MatrixOdbc.Driver.QueryCopy
import MatrixOdbc.Foundations.Refinement
import Mathlib.Data.List.DropRight

/-!
# What is in a `tempBuf`

`tempBuf` of `driver/parse.h` and `driver/utility.cc` with everything that can go wrong: sizes that
leave `size_t`, memory that is not granted, positions that are computed from a pointer and the
present address of the memory, and an assignment that clears its own members before it reads the
source. A world has any number of such buffers over one heap. What is in a buffer are the bytes
that were added since it was last reset, as long as no call does one of these things.
-/

namespace MatrixOdbc.Driver

/-- A pointer into the memory of a buffer, which may be `NULL`. -/
structure TempPtr where
  block : Option ℕ
  offset : ℕ
  deriving DecidableEq

/-- What a call returns. -/
inductive Returned where
  | nothing
  | pointer (place : TempPtr)
  | thrown
  deriving DecidableEq

/-- What a member function leaves: its result, the buffer and the heap. -/
abbrev TempResult := Returned × TempMemory × BlockHeap UInt8

namespace TempMemory

/-- A buffer without memory. -/
def empty : TempMemory := ⟨none, 0, 0⟩

/-- What is in the memory. -/
def memory (t : TempMemory) (heap : BlockHeap UInt8) : List UInt8 :=
  (t.buf.bind heap.block).getD []

/-- `buf_len + len`. -/
def grownLen (t : TempMemory) (len : ℕ) : ℕ := (t.bufLen + len) % 2 ^ 64

/-- `extend_buffer`. The buffer keeps a null pointer when no memory is granted; `realloc` to
nothing gives the memory back. -/
def extend (t : TempMemory) (len : ℕ) (granted : Bool) (heap : BlockHeap UInt8) : TempResult :=
  if t.bufLen < t.curPos then (.thrown, t, heap)
  else if t.bufLen - t.curPos < len then
    if granted = true ∧ t.grownLen len ≠ 0 then
      (.pointer ⟨some heap.length, t.curPos⟩,
        { t with buf := some heap.length, bufLen := t.grownLen len },
        heap.realloc t.buf (t.grownLen len) 0)
    else
      (.thrown, { t with buf := none },
        if t.grownLen len = 0 then t.buf.elim heap heap.free else heap)
  else (.pointer ⟨t.buf, t.curPos⟩, t, heap)

/-- `cur_pos = to - buf`, when there is such an argument; the blocks have addresses. -/
def seek (base : Option ℕ → UInt64) (t : TempMemory) : Option TempPtr → TempMemory
  | none => t
  | some place =>
    { t with curPos := (base place.block + .ofNat place.offset - base t.buf).toNat }

/-- By how much `add_to_buffer` extends. -/
def extendBy (t : TempMemory) (len : ℕ) : ℕ :=
  if len ≤ t.bufLen - t.curPos then 0 else (t.bufLen - t.curPos + len) % 2 ^ 64

/-- `memcpy(buf + cur_pos, from, len)`. -/
def copyIn (t : TempMemory) (chunk : List UInt8) (heap : BlockHeap UInt8) :
    Option (BlockHeap UInt8) :=
  if chunk = [] then some heap else t.buf.bind fun b => heap.write ⟨b, t.curPos⟩ chunk

/-- `add_to_buffer`. -/
def append (t : TempMemory) (chunk : List UInt8) (granted : Bool) (heap : BlockHeap UInt8) :
    Option TempResult :=
  if t.bufLen < t.curPos then some (.thrown, t, heap)
  else
    let r := t.extend (t.extendBy chunk.length) granted heap
    if r.1 = .thrown then some r
    else
      (r.2.1.copyIn chunk r.2.2).map fun heap =>
        (.pointer ⟨r.2.1.buf, r.2.1.curPos + chunk.length⟩,
          { r.2.1 with curPos := r.2.1.curPos + chunk.length }, heap)

/-- The loop of `remove_trail_zeroes`. -/
def trailZeroes (memory : List UInt8) : ℕ → Option ℕ
  | 0 => some 0
  | n + 1 => memory[n]?.bind fun byte => if byte = 0 then trailZeroes memory n else some (n + 1)

/-- `remove_trail_zeroes`. -/
def removeTrailZeroes (t : TempMemory) (heap : BlockHeap UInt8) : Option TempResult :=
  (trailZeroes (t.memory heap) t.curPos).map fun n => (.nothing, { t with curPos := n }, heap)

/-- `memcpy(buf, b.buf, b.cur_pos)`. -/
def copyOver (t b : TempMemory) (heap : BlockHeap UInt8) : Option (BlockHeap UInt8) :=
  if b.curPos = 0 then some heap
  else t.buf.bind fun target => b.buf.bind fun source =>
    heap.memcpy ⟨target, 0⟩ ⟨source, 0⟩ b.curPos

/-- `operator=` once the members have been cleared, for the source as it is then. -/
def assigned (b : TempMemory) (granted : Bool) (heap : BlockHeap UInt8) : Option TempResult :=
  if b.bufLen ≠ 0 then
    let r := empty.extend b.bufLen granted heap
    if r.1 = .thrown then some r
    else
      (r.2.1.copyOver b r.2.2).map fun heap => (.nothing, { r.2.1 with curPos := b.curPos }, heap)
  else some (.nothing, { empty with curPos := b.curPos }, heap)

end TempMemory

/-- Buffers over one heap. -/
structure TempWorld where
  heap : BlockHeap UInt8
  bufs : List TempMemory

/-- A call to one of the buffers. -/
inductive TempCall where
  | new (size : ℕ)
  | copyOf (j : ℕ)
  | assign (i j : ℕ)
  | extend (i : ℕ) (place : Option TempPtr) (len : ℕ)
  | add (i : ℕ) (place : Option TempPtr) (chunk : List UInt8)
  | removeTrailZeroes (i : ℕ)
  | reset (i : ℕ)

namespace TempWorld

/-- A member function of a buffer. -/
def update (w : TempWorld) (i : ℕ) (f : TempMemory → BlockHeap UInt8 → Option TempResult) :
    Option (TempWorld × Returned) :=
  w.bufs[i]?.bind fun t => (f t w.heap).map fun r => (⟨r.2.2, w.bufs.set i r.2.1⟩, r.1)

/-- A constructor; there is no buffer when it throws. -/
def construct (w : TempWorld) (r : TempResult) : TempWorld × Returned :=
  (⟨r.2.2, if r.1 = .thrown then w.bufs else w.bufs ++ [r.2.1]⟩, r.1)

/-- A call, and whether memory is granted if it asks for some. The members are cleared before the
source of an assignment is read. -/
def step (base : Option ℕ → UInt64) (w : TempWorld) :
    TempCall × Bool → Option (TempWorld × Returned)
  | (.new size, granted) =>
    some (w.construct (if size ≠ 0 then TempMemory.empty.extend size granted w.heap
      else (.nothing, .empty, w.heap)))
  | (.copyOf j, granted) =>
    w.bufs[j]?.bind fun b => (b.assigned granted w.heap).map w.construct
  | (.assign i j, granted) =>
    let w := { w with bufs := w.bufs.set i .empty }
    w.bufs[j]?.bind fun b => w.update i fun _ heap => b.assigned granted heap
  | (.extend i place len, granted) =>
    w.update i fun t heap => some ((t.seek base place).extend len granted heap)
  | (.add i place chunk, granted) =>
    w.update i fun t heap => (t.seek base place).append chunk granted heap
  | (.removeTrailZeroes i, _) => w.update i TempMemory.removeTrailZeroes
  | (.reset i, _) => w.update i fun t heap => some (.nothing, { t with curPos := 0 }, heap)

end TempWorld

/-- The bytes up to a pointer, if there is one. -/
def upTo (content : List UInt8) (place : Option TempPtr) : List UInt8 :=
  place.elim content fun place => content.take place.offset

/-- The bytes that have been added to every buffer since its last reset. -/
def contentsAfter (contents : List (List UInt8)) (input : TempCall × Bool) (output : Returned) :
    List (List UInt8) :=
  if output = .thrown then contents
  else
    match input.1 with
    | .new _ => contents ++ [[]]
    | .copyOf j => contents ++ [contents.getD j []]
    | .assign i j => contents.set i (contents.getD j [])
    | .extend i place _ => contents.set i (upTo (contents.getD i []) place)
    | .add i place chunk => contents.set i (upTo (contents.getD i []) place ++ chunk)
    | .removeTrailZeroes i => contents.set i ((contents.getD i []).rdropWhile (· = 0))
    | .reset i => contents.set i []

/-- A buffer has the bytes in memory of its own, and its position behind them. -/
structure TempMemory.Owns (heap : BlockHeap UInt8) (t : TempMemory) (content : List UInt8) :
    Prop where
  bufLen_lt : t.bufLen < 2 ^ 64
  curPos_le : t.curPos ≤ t.bufLen
  live : ∀ b ∈ t.buf, (heap.block b).isSome
  length : (t.memory heap).length = t.bufLen
  content : (t.memory heap).take t.curPos = content

/-- Every buffer has its bytes, and no two share memory. -/
structure TempWorld.Lawful (w : TempWorld) (contents : List (List UInt8)) : Prop where
  length : w.bufs.length = contents.length
  owns : ∀ (i : ℕ) (t : TempMemory) (content : List UInt8), w.bufs[i]? = some t →
    contents[i]? = some content → t.Owns w.heap content
  separate : ∀ (i j : ℕ) (t t' : TempMemory), i ≠ j → w.bufs[i]? = some t →
    w.bufs[j]? = some t' → ∀ b ∈ t.buf, b ∉ t'.buf

/-- A pointer has the address that it would have in the present memory, up to the position. -/
def TempMemory.Reached (base : Option ℕ → UInt64) (t : TempMemory) (place : Option TempPtr) :
    Prop :=
  ∀ p ∈ place, base p.block = base t.buf ∧ p.offset ≤ t.curPos

/-- What the memory becomes holds what is there and what is to be added; memory that is not granted
costs nothing only if there was none. -/
def TempMemory.Holds (t : TempMemory) (len added : ℕ) (granted : Bool) : Prop :=
  if t.bufLen - t.curPos < len then
    if granted = true ∧ t.grownLen len ≠ 0 then t.curPos + added ≤ t.grownLen len
    else t.bufLen = 0
  else t.curPos + added ≤ t.bufLen

/-- What a call must meet: its buffers are there, a pointer leads into the present memory up to the
position, the sizes fit, and a buffer is assigned to itself only when it is empty. -/
def TempWorld.Sound (base : Option ℕ → UInt64) (w : TempWorld) : TempCall × Bool → Prop
  | (.new _, _) => True
  | (.copyOf j, _) => j < w.bufs.length
  | (.assign i j, granted) => ∃ t b, w.bufs[i]? = some t ∧ w.bufs[j]? = some b ∧
      (i = j → t.curPos = 0) ∧ (granted = true ∨ b.bufLen = 0 ∨ t.curPos = 0)
  | (.extend i place len, granted) => ∃ t, w.bufs[i]? = some t ∧ t.Reached base place ∧
      (t.seek base place).Holds len 0 granted
  | (.add i place chunk, granted) => ∃ t, w.bufs[i]? = some t ∧ t.Reached base place ∧
      (t.seek base place).Holds ((t.seek base place).extendBy chunk.length) chunk.length granted
  | (.removeTrailZeroes i, _) => i < w.bufs.length
  | (.reset i, _) => i < w.bufs.length

/-- What a member function does to its buffer, and that it leaves the memory of others alone. -/
structure TempMemory.Effect (heap : BlockHeap UInt8) (t : TempMemory) (heap' : BlockHeap UInt8)
    (t' : TempMemory) (content : List UInt8) : Prop where
  owns : t'.Owns heap' content
  kept : ∀ b memory, heap.block b = some memory → b ∉ t.buf → heap'.block b = some memory
  fresh : ∀ b ∈ t'.buf, b ∈ t.buf ∨ heap.length ≤ b

namespace TempMemory

variable {heap heap' : BlockHeap UInt8} {t t' b : TempMemory} {content chunk : List UInt8}
  {len added : ℕ} {granted : Bool} {base : Option ℕ → UInt64} {place : Option TempPtr}

theorem Owns.curPos_eq (h : t.Owns heap content) : t.curPos = content.length := by
  rw [← h.content, List.length_take, h.length, Nat.min_eq_left h.curPos_le]

theorem Owns.eq_nil (h : t.Owns heap content) (hzero : t.bufLen = 0) : content = [] := by
  have hpos : t.curPos = 0 := Nat.le_zero.mp (hzero ▸ h.curPos_le)
  rw [← h.content, hpos, List.take_zero]

theorem memory_eq {c : ℕ} {memory : List UInt8} (hbuf : t.buf = some c)
    (hblock : heap.block c = some memory) : t.memory heap = memory := by
  rw [TempMemory.memory, hbuf, Option.bind_some, hblock]
  rfl

theorem Owns.exists_buf (h : t.Owns heap content) (hpos : 0 < t.bufLen) :
    ∃ c, t.buf = some c := by
  cases hbuf : t.buf with
  | none =>
    have hlength := h.length
    rw [memory, hbuf] at hlength
    exact absurd hlength hpos.ne
  | some c => exact ⟨c, rfl⟩

theorem owns_empty (heap : BlockHeap UInt8) : empty.Owns heap [] :=
  ⟨by decide, Nat.le_refl _, fun b hb => absurd hb (Option.not_mem_none b), rfl, rfl⟩

/-- Another position up to which the bytes are known. -/
theorem Owns.setPos (h : t.Owns heap content) {n : ℕ} (hn : n ≤ t.curPos) :
    Owns heap { t with curPos := n } (content.take n) := by
  refine ⟨h.bufLen_lt, hn.trans h.curPos_le, h.live, h.length, ?_⟩
  rw [← h.content, List.take_take, Nat.min_eq_left hn]
  rfl

theorem Effect.refl (h : t.Owns heap content) : Effect heap t heap t content :=
  ⟨h, fun _ _ hb _ => hb, fun _ hb => .inl hb⟩

/-- A pointer that is reached is where the position is put. -/
theorem seek_eq (h : t.Owns heap content) (hreached : t.Reached base place) :
    t.seek base place = { t with curPos := place.elim t.curPos TempPtr.offset } ∧
      Owns heap (t.seek base place) (upTo content place) := by
  cases place with
  | none => exact ⟨rfl, h⟩
  | some place =>
    obtain ⟨hbase, hle⟩ := hreached place rfl
    have hlt : place.offset < 2 ^ 64 := (hle.trans h.curPos_le).trans_lt h.bufLen_lt
    have hpos : (base place.block + .ofNat place.offset - base t.buf).toNat = place.offset := by
      rw [hbase, UInt64.add_comm, UInt64.add_sub_cancel, UInt64.toNat_ofNat_of_lt' hlt]
    have hseek : t.seek base (some place) = { t with curPos := place.offset } := by
      rw [seek, hpos]
    exact ⟨hseek, hseek ▸ h.setPos hle⟩

/-- The memory behind a `realloc`. -/
theorem memory_realloc (n : ℕ) :
    memory { t with buf := some heap.length, bufLen := n } (heap.realloc t.buf n 0) =
      (t.memory heap).take n ++ List.replicate (n - ((t.memory heap).take n).length) 0 := by
  rw [memory, Option.bind_some, BlockHeap.block_realloc_self]
  rfl

/-- A buffer is extended, or the call throws and nothing was there. -/
theorem extend_spec (h : t.Owns heap content) (hholds : t.Holds len added granted) :
    ∃ t' heap', Effect heap t heap' t' content ∧
      ((t.extend len granted heap = (.thrown, t', heap') ∧ t.bufLen = 0) ∨
      ∃ place, t.extend len granted heap = (.pointer place, t', heap') ∧
        t'.curPos = t.curPos ∧ t.curPos + added ≤ t'.bufLen) := by
  have hinside : ¬ t.bufLen < t.curPos := Nat.not_lt_of_le h.curPos_le
  rw [extend, if_neg hinside]
  rw [Holds] at hholds
  by_cases hgrow : t.bufLen - t.curPos < len
  · rw [if_pos hgrow] at hholds ⊢
    by_cases hgranted : granted = true ∧ t.grownLen len ≠ 0
    · rw [if_pos hgranted] at hholds ⊢
      refine ⟨_, _, ⟨⟨Nat.mod_lt _ (by decide), ?_, ?_, ?_, ?_⟩, ?_, ?_⟩,
        .inr ⟨_, rfl, rfl, hholds⟩⟩
      · exact (Nat.le_add_right _ _).trans hholds
      · intro b hb
        cases hb
        rw [BlockHeap.block_realloc_self]
        rfl
      · rw [memory_realloc, List.length_append, List.length_replicate, List.length_take]
        dsimp only
        omega
      · have hpos : t.curPos ≤ ((t.memory heap).take (t.grownLen len)).length := by
          rw [List.length_take, h.length]
          exact Nat.le_min.mpr ⟨(Nat.le_add_right _ _).trans hholds, h.curPos_le⟩
        rw [memory_realloc]
        dsimp only
        rw [List.take_append_of_le_length hpos, List.take_take, Nat.min_eq_left
          ((Nat.le_add_right _ _).trans hholds), h.content]
      · intro b memory hb hown
        have hlt := BlockHeap.lt_length_of_block hb
        rw [BlockHeap.block_realloc_of_ne hlt.ne fun c hc hbc => hown (hbc ▸ hc)]
        exact hb
      · intro b hb
        cases hb
        exact .inr (Nat.le_refl _)
    · rw [if_neg hgranted] at hholds ⊢
      have hnil : content = [] := h.eq_nil hholds
      refine ⟨{ t with buf := none }, _, ⟨⟨h.bufLen_lt, h.curPos_le, ?_, ?_, ?_⟩, ?_, ?_⟩,
        .inl ⟨rfl, hholds⟩⟩
      · exact fun b hb => absurd hb (Option.not_mem_none b)
      · exact hholds.symm
      · rw [hnil]
        exact List.take_nil
      · intro b memory hb hown
        split_ifs
        · cases hbuf : t.buf with
          | none => exact hb
          | some c =>
            rw [hbuf] at hown
            have hbc : b ≠ c := by
              rintro rfl
              exact hown rfl
            exact (BlockHeap.block_free_of_ne hbc).trans hb
        · exact hb
      · exact fun b hb => absurd hb (Option.not_mem_none b)
  · rw [if_neg hgrow] at hholds ⊢
    exact ⟨t, heap, .refl h, .inr ⟨_, rfl, rfl, hholds⟩⟩

/-- Bytes are added, or the call throws and nothing was there. -/
theorem append_spec (h : t.Owns heap content)
    (hholds : t.Holds (t.extendBy chunk.length) chunk.length granted) :
    ∃ r, t.append chunk granted heap = some r ∧ (r.1 = .thrown → t.bufLen = 0) ∧
      Effect heap t r.2.2 r.2.1 (if r.1 = .thrown then content else content ++ chunk) := by
  have hinside : ¬ t.bufLen < t.curPos := Nat.not_lt_of_le h.curPos_le
  rw [append, if_neg hinside]
  obtain ⟨t', heap', heffect, ⟨hthrown, hzero⟩ | ⟨place, hextend, hpos, hroom⟩⟩ :=
    extend_spec h hholds
  · rw [hthrown]
    refine ⟨_, if_pos rfl, fun _ => hzero, ?_⟩
    rwa [if_pos rfl]
  · rw [hextend]
    simp only [reduceCtorEq, if_false]
    have howns := heffect.owns
    by_cases hnil : chunk = []
    · subst hnil
      rw [copyIn, if_pos rfl, Option.map_some]
      refine ⟨_, rfl, ?_, ?_⟩
      · intro hthrown
        cases hthrown
      · rw [if_neg (by rintro ⟨⟩), List.append_nil]
        exact heffect
    · have hlen : 0 < chunk.length := List.length_pos_of_ne_nil hnil
      obtain ⟨b, hbuf⟩ := howns.exists_buf (by omega)
      obtain ⟨memory, hmemory⟩ := Option.isSome_iff_exists.mp (howns.live b hbuf)
      have hmem : t'.memory heap' = memory := memory_eq hbuf hmemory
      have hsize : memory.length = t'.bufLen := hmem ▸ howns.length
      have hfits : t'.curPos + chunk.length ≤ memory.length := by omega
      have hlive := BlockHeap.lt_length_of_block hmemory
      have hcopy : t'.copyIn chunk heap' =
          some (heap'.put b (Buffer.store memory t'.curPos chunk)) := by
        rw [copyIn, if_neg hnil, hbuf, Option.bind_some]
        exact BlockHeap.write_eq hmemory hfits
      rw [hcopy, Option.map_some]
      refine ⟨_, rfl, ?_, ?_⟩
      · intro hthrown
        cases hthrown
      rw [if_neg (by rintro ⟨⟩)]
      have hafter : TempMemory.memory { t' with curPos := t'.curPos + chunk.length }
          (heap'.put b (Buffer.store memory t'.curPos chunk)) =
            Buffer.store memory t'.curPos chunk :=
        memory_eq hbuf (BlockHeap.block_put_self hlive)
      refine ⟨⟨howns.bufLen_lt, hsize ▸ hfits, ?_, ?_, ?_⟩, ?_, heffect.fresh⟩
      · intro c hc
        obtain rfl : b = c := Option.some.inj (hbuf.symm.trans hc)
        rw [BlockHeap.block_put_self hlive]
        rfl
      · rw [hafter, Buffer.length_store hfits, hsize]
      · rw [hafter, Buffer.take_store hfits, ← hmem, howns.content]
      · intro c other hc hown
        have hcb : c ≠ b := by
          rintro rfl
          rcases heffect.fresh c hbuf with hold | hnew
          · exact hown hold
          · exact Nat.not_lt_of_le hnew (BlockHeap.lt_length_of_block hc)
        rw [BlockHeap.block_put_of_ne hcb]
        exact heffect.kept c other hc hown

/-- The loop finds the end of the bytes without their trailing zeroes. -/
theorem trailZeroes_eq {memory : List UInt8} {n : ℕ} (hn : n ≤ memory.length) :
    trailZeroes memory n = some ((memory.take n).rdropWhile (· = 0)).length := by
  induction n with
  | zero => rfl
  | succ n ih =>
    have hlt : n < memory.length := hn
    rw [trailZeroes, List.getElem?_eq_getElem hlt, Option.bind_some,
      List.take_succ_eq_append_getElem hlt, List.rdropWhile_concat]
    split_ifs with hzero hzero' hzero'
    · exact ih (Nat.le_of_succ_le hn)
    · exact absurd (decide_eq_true hzero) hzero'
    · exact absurd (of_decide_eq_true hzero') hzero
    · rw [List.length_append, List.length_take, Nat.min_eq_left hlt.le, List.length_singleton]

/-- The trailing zeroes go. -/
theorem removeTrailZeroes_spec (h : t.Owns heap content) :
    ∃ r, t.removeTrailZeroes heap = some r ∧ r.1 = .nothing ∧
      Effect heap t r.2.2 r.2.1 (content.rdropWhile (· = 0)) := by
  have hloop := trailZeroes_eq (h.length ▸ h.curPos_le)
  rw [h.content] at hloop
  have hfront := content.rdropWhile_prefix (· = 0)
  have hle : (content.rdropWhile (· = 0)).length ≤ t.curPos := h.curPos_eq ▸ hfront.length_le
  have hset := h.setPos hle
  rw [← List.prefix_iff_eq_take.mp hfront] at hset
  exact ⟨_, by rw [removeTrailZeroes, hloop, Option.map_some], rfl, hset, fun _ _ hb _ => hb,
    fun _ hb => .inl hb⟩

/-- The bytes of a source are copied into memory that has been allocated for them. -/
theorem copyOver_spec (h : b.Owns heap content) (heffect : Effect heap empty heap' t' [])
    (hpos : t'.curPos = 0) (hroom : b.bufLen ≤ t'.bufLen) :
    ∃ heap'', t'.copyOver b heap' = some heap'' ∧
      Effect heap empty heap'' { t' with curPos := b.curPos } content := by
  have howns := heffect.owns
  by_cases hzero : b.curPos = 0
  · have hset := howns.setPos (hzero.trans hpos.symm).le
    have hnil : content = [] := by rw [← h.content, hzero, List.take_zero]
    rw [copyOver, if_pos hzero, hnil]
    rw [List.take_nil] at hset
    exact ⟨heap', rfl, hset, heffect.kept, heffect.fresh⟩
  · have hpos := h.curPos_le
    obtain ⟨target, htarget⟩ : ∃ target, t'.buf = some target :=
      howns.exists_buf (by omega)
    obtain ⟨source, hsource⟩ : ∃ source, b.buf = some source := h.exists_buf (by omega)
    obtain ⟨memory, hmemory⟩ := Option.isSome_iff_exists.mp (h.live source hsource)
    obtain ⟨memory', hmemory'⟩ := Option.isSome_iff_exists.mp (howns.live target htarget)
    have hmem : b.memory heap = memory := memory_eq hsource hmemory
    have hmem' : t'.memory heap' = memory' := memory_eq htarget hmemory'
    have hsize : memory.length = b.bufLen := hmem ▸ h.length
    have hsize' : memory'.length = t'.bufLen := hmem' ▸ howns.length
    have hlive := BlockHeap.lt_length_of_block hmemory'
    have hcopy := @BlockHeap.memcpy_front _ heap' memory' target b.curPos memory source hmemory'
      (heffect.kept source memory hmemory (Option.not_mem_none source)) (by omega) (by omega)
    have hover : t'.copyOver b heap' =
        some (heap'.put target (memory.take b.curPos ++ memory'.drop b.curPos)) := by
      rw [copyOver, if_neg hzero, htarget, Option.bind_some, hsource, Option.bind_some, hcopy]
    have htake : (memory.take b.curPos).length = b.curPos := by
      rw [List.length_take]
      omega
    have hafter : TempMemory.memory { t' with curPos := b.curPos }
        (heap'.put target (memory.take b.curPos ++ memory'.drop b.curPos)) =
          memory.take b.curPos ++ memory'.drop b.curPos :=
      memory_eq htarget (BlockHeap.block_put_self hlive)
    refine ⟨_, hover, ⟨howns.bufLen_lt, hpos.trans hroom, ?_, ?_, ?_⟩, ?_, heffect.fresh⟩
    · intro c hc
      obtain rfl : target = c := Option.some.inj (htarget.symm.trans hc)
      rw [BlockHeap.block_put_self hlive]
      rfl
    · rw [hafter, List.length_append, htake, List.length_drop, hsize']
      dsimp only
      omega
    · rw [hafter, List.take_left' htake, ← hmem, h.content]
    · intro c other hc hown
      have hct : c ≠ target := by
        rintro rfl
        rcases heffect.fresh c htarget with hold | hnew
        · exact Option.not_mem_none c hold
        · exact Nat.not_lt_of_le hnew (BlockHeap.lt_length_of_block hc)
      rw [BlockHeap.block_put_of_ne hct]
      exact heffect.kept c other hc hown

/-- A buffer that has been cleared gets the bytes of a source, or nothing when the call throws. -/
theorem assigned_spec (h : b.Owns heap content) :
    ∃ r, b.assigned granted heap = some r ∧
      (r.1 = .thrown → granted = false ∧ b.bufLen ≠ 0) ∧
      Effect heap empty r.2.2 r.2.1 (if r.1 = .thrown then [] else content) := by
  have hnothing : ¬ Returned.nothing = .thrown := by rintro ⟨⟩
  by_cases hzero : b.bufLen = 0
  · have hnil := h.eq_nil hzero
    have hpos : b.curPos = 0 := Nat.le_zero.mp (hzero ▸ h.curPos_le)
    rw [assigned, if_neg (not_not.mpr hzero), hpos, hnil]
    refine ⟨_, rfl, fun hthrown => absurd hthrown hnothing, ?_⟩
    rw [if_neg hnothing]
    exact .refl (owns_empty heap)
  · have hsize : empty.grownLen b.bufLen = b.bufLen := by
      rw [grownLen, empty, Nat.zero_add, Nat.mod_eq_of_lt h.bufLen_lt]
    have hgrow : empty.bufLen - empty.curPos < b.bufLen := Nat.pos_of_ne_zero hzero
    have hholds : empty.Holds b.bufLen b.bufLen granted := by
      rw [Holds, if_pos hgrow, hsize]
      split_ifs
      · exact (Nat.zero_add _).le
      · rfl
    rw [assigned, if_pos hzero]
    obtain ⟨t', heap', heffect, ⟨hthrown, -⟩ | ⟨place, hextend, hpos, hroom⟩⟩ :=
      extend_spec (owns_empty heap) hholds
    · rw [hthrown]
      refine ⟨_, if_pos rfl, fun _ => ⟨?_, hzero⟩, ?_⟩
      · by_contra hgranted
        have hinside : ¬ empty.bufLen < empty.curPos := Nat.lt_irrefl 0
        rw [extend, if_neg hinside, if_pos hgrow,
          if_pos ⟨by simpa using hgranted, by rwa [hsize]⟩] at hthrown
        cases hthrown
      · rw [if_pos rfl]
        exact heffect
    · rw [hextend, if_neg (by rintro ⟨⟩)]
      obtain ⟨heap'', hcopy, hcopied⟩ := copyOver_spec h heffect hpos
        ((Nat.le_add_left _ _).trans hroom)
      dsimp only
      rw [hcopy, Option.map_some]
      refine ⟨_, rfl, fun hthrown => absurd hthrown hnothing, ?_⟩
      rwa [if_neg hnothing]

/-- The effect on a buffer whose position has been put somewhere else first. -/
theorem Effect.of_buf {s : TempMemory} (h : Effect heap s heap' t' content) (hbuf : s.buf = t.buf) :
    Effect heap t heap' t' content :=
  ⟨h.owns, fun b memory hb hown => h.kept b memory hb (hbuf ▸ hown),
    fun b hb => hbuf ▸ h.fresh b hb⟩

/-- A buffer whose memory is left alone keeps its bytes. -/
theorem Owns.of_kept (h : t.Owns heap content)
    (hkept : ∀ b memory, b ∈ t.buf → heap.block b = some memory → heap'.block b = some memory) :
    t.Owns heap' content := by
  have hsame : t.memory heap' = t.memory heap := by
    cases hbuf : t.buf with
    | none => rw [memory, memory, hbuf]; rfl
    | some c =>
      obtain ⟨memory, hmemory⟩ := Option.isSome_iff_exists.mp (h.live c hbuf)
      rw [memory_eq hbuf hmemory, memory_eq hbuf (hkept c memory hbuf hmemory)]
  refine ⟨h.bufLen_lt, h.curPos_le, ?_, hsame ▸ h.length, hsame ▸ h.content⟩
  intro c hc
  obtain ⟨memory, hmemory⟩ := Option.isSome_iff_exists.mp (h.live c hc)
  rw [hkept c memory hc hmemory]
  rfl

end TempMemory

namespace TempWorld

open TempMemory

variable {w : TempWorld} {contents : List (List UInt8)} {i j : ℕ} {t t' : TempMemory}
  {content : List UInt8} {heap' : BlockHeap UInt8} {base : Option ℕ → UInt64}

/-- What is to be in a buffer. -/
theorem Lawful.exists_content (h : w.Lawful contents) (ht : w.bufs[i]? = some t) :
    ∃ content, contents[i]? = some content ∧ t.Owns w.heap content := by
  obtain ⟨hi, -⟩ := List.getElem?_eq_some_iff.mp ht
  have hlt : i < contents.length := h.length ▸ hi
  have hcontent : contents[i]? = some contents[i] := List.getElem?_eq_getElem hlt
  exact ⟨_, hcontent, h.owns i t _ ht hcontent⟩

/-- A buffer other than the one of a call is left alone. -/
theorem Lawful.kept (h : w.Lawful contents) (ht : w.bufs[i]? = some t) {k : ℕ} {s : TempMemory}
    {other : List UInt8} (hs : w.bufs[k]? = some s) (hk : k ≠ i)
    (heffect : Effect w.heap t heap' t' content) (howns : s.Owns w.heap other) :
    s.Owns heap' other :=
  howns.of_kept fun b memory hb hmemory =>
    heffect.kept b memory hmemory (h.separate k i s t hk hs ht b hb)

/-- A buffer is changed by a call. -/
theorem Lawful.update (h : w.Lawful contents) (ht : w.bufs[i]? = some t)
    (heffect : Effect w.heap t heap' t' content) :
    Lawful ⟨heap', w.bufs.set i t'⟩ (contents.set i content) := by
  obtain ⟨hi, -⟩ := List.getElem?_eq_some_iff.mp ht
  have hfree (k : ℕ) (s : TempMemory) (hk : k ≠ i) (hs : w.bufs[k]? = some s) (b : ℕ)
      (hb : b ∈ s.buf) : b ∉ t'.buf := by
    intro hb'
    obtain ⟨other, -, howns⟩ := h.exists_content hs
    obtain ⟨memory, hmemory⟩ := Option.isSome_iff_exists.mp (howns.live b hb)
    rcases heffect.fresh b hb' with hold | hnew
    · exact h.separate k i s t hk hs ht b hb hold
    · exact Nat.not_lt_of_le hnew (BlockHeap.lt_length_of_block hmemory)
  refine ⟨?_, ?_, ?_⟩
  · rw [List.length_set, List.length_set, h.length]
  · intro k s other hs hother
    by_cases hk : k = i
    · subst hk
      rw [List.getElem?_set_self hi] at hs
      rw [List.getElem?_set_self (h.length ▸ hi)] at hother
      cases hs
      cases hother
      exact heffect.owns
    · rw [List.getElem?_set_ne (Ne.symm hk)] at hs hother
      exact h.kept ht hs hk heffect (h.owns k s other hs hother)
  · intro k l s s' hkl hs hs' b hb hb'
    by_cases hk : k = i
    · have hl : l ≠ i := fun hl => hkl (hk.trans hl.symm)
      rw [List.getElem?_set_ne (Ne.symm hl)] at hs'
      rw [hk, List.getElem?_set_self hi] at hs
      cases hs
      exact hfree l s' hl hs' b hb' hb
    · rw [List.getElem?_set_ne (Ne.symm hk)] at hs
      by_cases hl : l = i
      · rw [hl, List.getElem?_set_self hi] at hs'
        cases hs'
        exact hfree k s hk hs b hb hb'
      · rw [List.getElem?_set_ne (Ne.symm hl)] at hs'
        exact h.separate k l s s' hkl hs hs' b hb hb'

/-- There is one buffer more, without memory. -/
theorem Lawful.push_empty (h : w.Lawful contents) :
    Lawful ⟨w.heap, w.bufs ++ [.empty]⟩ (contents ++ [[]]) := by
  have hcases (k : ℕ) (s : TempMemory) (hs : (w.bufs ++ [.empty])[k]? = some s) :
      w.bufs[k]? = some s ∨ k = w.bufs.length ∧ s = .empty := by
    rw [List.getElem?_append] at hs
    split_ifs at hs with hk
    · exact .inl hs
    · obtain ⟨hlt, hget⟩ := List.getElem?_eq_some_iff.mp hs
      have hzero : k - w.bufs.length = 0 := Nat.lt_one_iff.mp hlt
      refine .inr ⟨by omega, ?_⟩
      rw [← hget]
      simp only [hzero, List.getElem_cons_zero]
  refine ⟨?_, ?_, ?_⟩
  · rw [List.length_append, List.length_append, h.length]
    rfl
  · intro k s other hs hother
    rcases hcases k s hs with hold | ⟨rfl, rfl⟩
    · obtain ⟨hk, -⟩ := List.getElem?_eq_some_iff.mp hold
      rw [List.getElem?_append_left (h.length ▸ hk)] at hother
      exact h.owns k s other hold hother
    · rw [h.length, List.getElem?_append_right (Nat.le_refl _), Nat.sub_self] at hother
      cases hother
      exact owns_empty _
  · intro k l s s' hkl hs hs' b hb hb'
    rcases hcases k s hs with hold | ⟨rfl, rfl⟩
    · rcases hcases l s' hs' with hold' | ⟨rfl, rfl⟩
      · exact h.separate k l s s' hkl hold hold' b hb hb'
      · exact Option.not_mem_none b hb'
    · exact Option.not_mem_none b hb

/-- A buffer is constructed, or there is none when the constructor throws. -/
theorem Lawful.construct (h : w.Lawful contents) {r : TempResult}
    (heffect : Effect w.heap .empty r.2.2 r.2.1 (if r.1 = .thrown then [] else content)) :
    (w.construct r).1.Lawful (if r.1 = .thrown then contents else contents ++ [content]) := by
  unfold TempWorld.construct
  split_ifs at heffect ⊢ with hthrown
  · refine ⟨h.length, fun k s other hs hother => ?_, h.separate⟩
    exact (h.owns k s other hs hother).of_kept fun b memory _ hmemory =>
      heffect.kept b memory hmemory (Option.not_mem_none b)
  · have hlast : (w.bufs ++ [TempMemory.empty])[w.bufs.length]? = some .empty := by
      rw [List.getElem?_append_right (Nat.le_refl _), Nat.sub_self]
      rfl
    have hpush := h.push_empty.update hlast heffect
    rw [List.set_append_right _ _ (Nat.le_refl _), Nat.sub_self, h.length,
      List.set_append_right _ _ (Nat.le_refl _), Nat.sub_self] at hpush
    exact hpush

/-- A member function is called; when it throws, nothing has been added. -/
theorem Lawful.call (h : w.Lawful contents) {content' : List UInt8} {r : TempResult}
    {f : TempMemory → BlockHeap UInt8 → Option TempResult} (ht : w.bufs[i]? = some t)
    (hcontent : contents[i]? = some content) (hf : f t w.heap = some r)
    (heffect : Effect w.heap t r.2.2 r.2.1 (if r.1 = .thrown then content else content')) :
    ∃ w', w.update i f = some (w', r.1) ∧
      w'.Lawful (if r.1 = .thrown then contents else contents.set i content') := by
  refine ⟨_, by rw [TempWorld.update, ht, Option.bind_some, hf, Option.map_some], ?_⟩
  have hupdate := h.update ht heffect
  split_ifs at hupdate ⊢
  · obtain ⟨hi, rfl⟩ := List.getElem?_eq_some_iff.mp hcontent
    rwa [List.set_getElem_self] at hupdate
  · exact hupdate

/-- `extend_buffer` adds nothing. -/
theorem Lawful.extend (h : w.Lawful contents) {place : Option TempPtr} {len : ℕ} {granted : Bool}
    (ht : w.bufs[i]? = some t) (hreached : t.Reached base place)
    (hholds : (t.seek base place).Holds len 0 granted) :
    ∃ w' output, w.step base (.extend i place len, granted) = some (w', output) ∧
      w'.Lawful (contentsAfter contents (.extend i place len, granted) output) := by
  obtain ⟨content, hcontent, howns⟩ := h.exists_content ht
  obtain ⟨hseek, howns'⟩ := seek_eq howns hreached
  obtain ⟨t', heap', heffect, hextend⟩ := extend_spec howns' hholds
  have hbuf : (t.seek base place).buf = t.buf := by rw [hseek]
  have hcall (r : TempResult) (hr : (t.seek base place).extend len granted w.heap = r)
      (heffect : Effect w.heap t r.2.2 r.2.1
        (if r.1 = .thrown then content else upTo content place)) :
      ∃ w' output, w.step base (.extend i place len, granted) = some (w', output) ∧
        w'.Lawful (contentsAfter contents (.extend i place len, granted) output) := by
    obtain ⟨w', hw', hlawful⟩ := h.call
      (f := fun t heap => some ((t.seek base place).extend len granted heap)) ht hcontent
      (congrArg some hr) heffect
    refine ⟨w', r.1, hw', ?_⟩
    simp only [contentsAfter, List.getD_eq_getElem?_getD, hcontent, Option.getD_some]
    exact hlawful
  rcases hextend with ⟨hthrown, hzero⟩ | ⟨p, hpointer, -⟩
  · have hnil : content = [] := howns.eq_nil (by rw [hseek] at hzero; exact hzero)
    apply hcall _ hthrown
    rw [howns'.eq_nil hzero] at heffect
    rw [if_pos rfl, hnil]
    exact heffect.of_buf hbuf
  · apply hcall _ hpointer
    rw [if_neg (by rintro ⟨⟩)]
    exact heffect.of_buf hbuf

/-- `add_to_buffer` adds its bytes behind the position or the pointer. -/
theorem Lawful.add (h : w.Lawful contents) {place : Option TempPtr} {chunk : List UInt8}
    {granted : Bool} (ht : w.bufs[i]? = some t) (hreached : t.Reached base place)
    (hholds : (t.seek base place).Holds ((t.seek base place).extendBy chunk.length) chunk.length
      granted) :
    ∃ w' output, w.step base (.add i place chunk, granted) = some (w', output) ∧
      w'.Lawful (contentsAfter contents (.add i place chunk, granted) output) := by
  obtain ⟨content, hcontent, howns⟩ := h.exists_content ht
  obtain ⟨hseek, howns'⟩ := seek_eq howns hreached
  obtain ⟨r, hr, hzero, heffect⟩ := append_spec howns' hholds
  have hbuf : (t.seek base place).buf = t.buf := by rw [hseek]
  have heffect' : Effect w.heap t r.2.2 r.2.1
      (if r.1 = .thrown then content else upTo content place ++ chunk) := by
    by_cases hthrown : r.1 = .thrown
    · have hnil : content = [] := howns.eq_nil (by rw [hseek] at hzero; exact hzero hthrown)
      have hnone := howns'.eq_nil (hzero hthrown)
      rw [if_pos hthrown, hnone] at heffect
      rw [if_pos hthrown, hnil]
      exact heffect.of_buf hbuf
    · rw [if_neg hthrown] at heffect ⊢
      exact heffect.of_buf hbuf
  obtain ⟨w', hw', hlawful⟩ := h.call
    (f := fun t heap => (t.seek base place).append chunk granted heap) ht hcontent hr heffect'
  refine ⟨w', r.1, hw', ?_⟩
  simp only [contentsAfter, List.getD_eq_getElem?_getD, hcontent, Option.getD_some]
  exact hlawful

/-- A buffer gets the bytes of another one, or of itself when it is empty. -/
theorem Lawful.assign (h : w.Lawful contents) {b : TempMemory} {granted : Bool}
    (ht : w.bufs[i]? = some t) (hb : w.bufs[j]? = some b) (hself : i = j → t.curPos = 0)
    (hgranted : granted = true ∨ b.bufLen = 0 ∨ t.curPos = 0) :
    ∃ w' output, w.step base (.assign i j, granted) = some (w', output) ∧
      w'.Lawful (contentsAfter contents (.assign i j, granted) output) := by
  obtain ⟨hi, -⟩ := List.getElem?_eq_some_iff.mp ht
  obtain ⟨content, hcontent, howns⟩ := h.exists_content ht
  obtain ⟨source, hsource, howns'⟩ := h.exists_content hb
  have hclear : Effect w.heap t w.heap .empty [] :=
    ⟨owns_empty _, fun _ _ hc _ => hc, fun c hc => absurd hc (Option.not_mem_none c)⟩
  have hcleared := h.update ht hclear
  have hempty : (w.bufs.set i .empty)[i]? = some TempMemory.empty := List.getElem?_set_self hi
  have hnone : (contents.set i [])[i]? = some [] := List.getElem?_set_self (h.length ▸ hi)
  -- The source as it is once the members of the destination have been cleared.
  obtain ⟨b', hb', howns'', hlen⟩ : ∃ b', (w.bufs.set i .empty)[j]? = some b' ∧
      b'.Owns w.heap source ∧ (b'.bufLen ≠ 0 → b' = b) := by
    by_cases hij : i = j
    · subst hij
      have hnil : source = [] := by
        obtain rfl : t = b := Option.some.inj (ht.symm.trans hb)
        rw [← howns'.content, hself rfl, List.take_zero]
      exact ⟨.empty, hempty, hnil ▸ owns_empty _, fun hne => absurd rfl hne⟩
    · exact ⟨b, by rw [List.getElem?_set_ne hij, hb], howns', fun _ => rfl⟩
  obtain ⟨r, hr, hthrown, heffect⟩ := @assigned_spec w.heap b' source granted howns''
  obtain ⟨w', hw', hlawful⟩ := hcleared.call (f := fun _ heap => b'.assigned granted heap)
    hempty hnone hr heffect
  refine ⟨w', r.1, ?_, ?_⟩
  · rw [step]
    dsimp only
    rw [hb', Option.bind_some, hw']
  · rw [List.set_set] at hlawful
    simp only [contentsAfter, List.getD_eq_getElem?_getD, hsource, Option.getD_some]
    by_cases hthrew : r.1 = .thrown
    · obtain ⟨hdenied, hne⟩ := hthrown hthrew
      have hnil : content = [] := by
        have hpos : t.curPos = 0 := by
          rcases hgranted with hgranted | hzero | hpos
          · exact absurd (hgranted.symm.trans hdenied) (by decide)
          · exact absurd (hlen hne ▸ hzero) hne
          · exact hpos
        rw [← howns.content, hpos, List.take_zero]
      obtain ⟨hi', rfl⟩ := List.getElem?_eq_some_iff.mp hcontent
      rw [if_pos hthrew] at hlawful ⊢
      rwa [← hnil, List.set_getElem_self] at hlawful
    · rw [if_neg hthrew] at hlawful ⊢
      exact hlawful

/-- A buffer is constructed with some memory, or the constructor throws. -/
theorem Lawful.new (h : w.Lawful contents) (size : ℕ) (granted : Bool) :
    ∃ w' output, w.step base (.new size, granted) = some (w', output) ∧
      w'.Lawful (contentsAfter contents (.new size, granted) output) := by
  have heffect (r : TempResult) (hr : r = if size ≠ 0 then TempMemory.empty.extend size granted
      w.heap else (.nothing, .empty, w.heap)) : Effect w.heap .empty r.2.2 r.2.1 [] := by
    rw [hr]
    by_cases hsize : size = 0
    · rw [if_neg (not_not.mpr hsize)]
      exact .refl (owns_empty _)
    · rw [if_pos hsize]
      have hgrow : TempMemory.empty.bufLen - TempMemory.empty.curPos < size :=
        Nat.pos_of_ne_zero hsize
      have hholds : TempMemory.empty.Holds size 0 granted := by
        rw [TempMemory.Holds, if_pos hgrow]
        split_ifs
        · exact Nat.zero_le _
        · rfl
      obtain ⟨t', heap', heffect, ⟨hthrown, -⟩ | ⟨p, hpointer, -⟩⟩ :=
        extend_spec (owns_empty w.heap) hholds
      · rwa [hthrown]
      · rwa [hpointer]
  refine ⟨_, _, rfl, ?_⟩
  simp only [contentsAfter]
  apply h.construct
  rw [ite_self]
  exact heffect _ rfl

/-- `remove_trail_zeroes` leaves the bytes up to the trailing zeroes. -/
theorem Lawful.removeTrailZeroes (h : w.Lawful contents) (hi : i < w.bufs.length)
    (granted : Bool) :
    ∃ w' output, w.step base (.removeTrailZeroes i, granted) = some (w', output) ∧
      w'.Lawful (contentsAfter contents (.removeTrailZeroes i, granted) output) := by
  have ht : w.bufs[i]? = some w.bufs[i] := List.getElem?_eq_getElem hi
  obtain ⟨content, hcontent, howns⟩ := h.exists_content ht
  obtain ⟨r, hr, hnothing, heffect⟩ := removeTrailZeroes_spec howns
  have hreturned : ¬ r.1 = .thrown := by
    rw [hnothing]
    rintro ⟨⟩
  obtain ⟨w', hw', hlawful⟩ := h.call (t := w.bufs[i]) ht hcontent hr (by rwa [if_neg hreturned])
  refine ⟨w', r.1, hw', ?_⟩
  simp only [contentsAfter, List.getD_eq_getElem?_getD, hcontent, Option.getD_some]
  exact hlawful

/-- `reset` leaves no bytes. -/
theorem Lawful.reset (h : w.Lawful contents) (hi : i < w.bufs.length) (granted : Bool) :
    ∃ w' output, w.step base (.reset i, granted) = some (w', output) ∧
      w'.Lawful (contentsAfter contents (.reset i, granted) output) := by
  have ht : w.bufs[i]? = some w.bufs[i] := List.getElem?_eq_getElem hi
  obtain ⟨content, hcontent, howns⟩ := h.exists_content ht
  have hset := howns.setPos (Nat.zero_le _)
  rw [List.take_zero] at hset
  let r : TempResult := (.nothing, { w.bufs[i] with curPos := 0 }, w.heap)
  have hreturned : ¬ r.1 = .thrown := by rintro ⟨⟩
  have heffect : Effect w.heap w.bufs[i] r.2.2 r.2.1 (if r.1 = .thrown then content else []) := by
    rw [if_neg hreturned]
    exact ⟨hset, fun _ _ hb _ => hb, fun _ hb => .inl hb⟩
  obtain ⟨w', hw', hlawful⟩ := h.call
    (f := fun t heap => some (.nothing, { t with curPos := 0 }, heap)) ht hcontent rfl heffect
  exact ⟨w', .nothing, hw', hlawful⟩

/-- What a sound call leaves. -/
theorem Lawful.step (h : w.Lawful contents) {input : TempCall × Bool}
    (hsound : w.Sound base input) :
    ∃ w' output, w.step base input = some (w', output) ∧
      w'.Lawful (contentsAfter contents input output) := by
  obtain ⟨call, granted⟩ := input
  cases call with
  | new size => exact h.new size granted
  | copyOf j =>
    obtain ⟨b, hb⟩ : ∃ b, w.bufs[j]? = some b := ⟨_, List.getElem?_eq_getElem hsound⟩
    obtain ⟨source, hsource, howns⟩ := h.exists_content hb
    obtain ⟨r, hr, -, heffect⟩ := @assigned_spec w.heap b source granted howns
    refine ⟨_, r.1, by rw [TempWorld.step, hb, Option.bind_some, hr]; rfl, ?_⟩
    simp only [contentsAfter, List.getD_eq_getElem?_getD, hsource, Option.getD_some]
    exact h.construct heffect
  | assign i j =>
    obtain ⟨t, b, ht, hb, hself, hgranted⟩ := hsound
    exact h.assign ht hb hself hgranted
  | extend i place len =>
    obtain ⟨t, ht, hreached, hholds⟩ := hsound
    exact h.extend ht hreached hholds
  | add i place chunk =>
    obtain ⟨t, ht, hreached, hholds⟩ := hsound
    exact h.add ht hreached hholds
  | removeTrailZeroes i => exact h.removeTrailZeroes hsound granted
  | reset i => exact h.reset hsound granted

/-- No buffers yet. -/
def start : TempWorld := ⟨[], []⟩

theorem lawful_start : start.Lawful [] :=
  ⟨rfl, fun _ _ _ hs => absurd hs (by simp [start]),
    fun _ _ _ _ _ hs => absurd hs (by simp [start])⟩

end TempWorld

/-- In every run whose calls are all sound, each buffer has exactly the bytes that were added since
its last reset, inside memory of its own, with its position behind them. -/
theorem tempBuf_lawful {base : Option ℕ → UInt64} {calls : List (TempCall × Bool)}
    (hsound : Refinement.Meets (TempWorld.step base) (TempWorld.Sound base) .start calls) :
    ∃ w outputs, Refinement.run (TempWorld.step base) .start calls = some (w, outputs) ∧
      w.Lawful (Refinement.follow contentsAfter [] calls outputs) :=
  Refinement.run_follow (fun _ _ _ h hsound => h.step hsound) TempWorld.lawful_start hsound

/-- It holds when a copy of a buffer with a byte is made. -/
theorem tempBuf_lawful_copy :
    ∃ w outputs, Refinement.run (TempWorld.step fun _ => 0) .start
      [(.new 1, true), (.add 0 none [0x61], true), (.copyOf 0, true)] = some (w, outputs) ∧
      w.Lawful (Refinement.follow contentsAfter []
        [(.new 1, true), (.add 0 none [0x61], true), (.copyOf 0, true)] outputs) := by
  apply tempBuf_lawful
  refine ⟨trivial, ?_⟩
  rintro w₁ _ ⟨⟩
  refine ⟨⟨_, rfl, ?_, ?_⟩, ?_⟩
  · rintro p ⟨⟩
  · exact Nat.le_refl 1
  rintro w₂ _ ⟨⟩
  refine ⟨Nat.lt_of_lt_of_eq Nat.zero_lt_one rfl, ?_⟩
  rintro w₃ _ ⟨⟩
  trivial

/-- A buffer that is assigned to itself loses its bytes. A pointer that was returned before the
memory was moved puts the position outside of the memory, and one that was returned before a reset
makes bytes from before the reset part of the content. -/
theorem tempBuf_failures :
    (∃ w outputs, Refinement.run (TempWorld.step fun _ => 0) .start
        [(.new 1, true), (.add 0 none [0x61], true), (.assign 0 0, true)] = some (w, outputs) ∧
      Refinement.follow contentsAfter []
        [(.new 1, true), (.add 0 none [0x61], true), (.assign 0 0, true)] outputs = [[0x61]] ∧
      ¬ w.Lawful [[0x61]]) ∧
    (∃ base : Option ℕ → UInt64, ∃ w, Refinement.run (TempWorld.step base) .start
        [(.new 1, true), (.add 0 none [0x61], true), (.add 0 none [0x62], true),
          (.add 0 (some ⟨some 0, 1⟩) [0x63], true)] =
        some (w, [.pointer ⟨some 0, 0⟩, .pointer ⟨some 0, 1⟩, .pointer ⟨some 1, 2⟩, .thrown]) ∧
      ∃ t ∈ w.bufs, t.bufLen < t.curPos) ∧
    ∃ w, Refinement.run (TempWorld.step fun _ => 0) .start
        [(.new 2, true), (.add 0 none [0x61], true), (.reset 0, true),
          (.add 0 (some ⟨some 0, 1⟩) [0x62], true)] =
        some (w, [.pointer ⟨some 0, 0⟩, .pointer ⟨some 0, 1⟩, .nothing, .pointer ⟨some 0, 2⟩]) ∧
      ¬ w.Lawful [[0x62]] := by
  refine ⟨⟨_, _, rfl, rfl, ?_⟩, ⟨fun b => if b = some 1 then 0x1000 else 0x2000, _, rfl, _,
    List.mem_singleton.mpr rfl, ?_⟩, _, rfl, ?_⟩
  · intro h
    have hcontent := (h.owns 0 _ _ rfl rfl).content
    exact absurd hcontent (by decide)
  · decide
  · intro h
    have hcontent := (h.owns 0 _ _ rfl rfl).content
    exact absurd hcontent (by decide)

end MatrixOdbc.Driver
