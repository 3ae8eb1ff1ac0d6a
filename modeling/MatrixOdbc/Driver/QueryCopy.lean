import MatrixOdbc.Driver.ParseAccess
import MatrixOdbc.Foundations.Heap
import Mathlib.Logic.Function.Basic
import Mathlib.Logic.Relation

/-!
# Copying a parsed query

A statement keeps two parsed queries, and `do_query` puts the saved one back by assignment. The
text of a parsed query is in the memory of its `tempBuf`, and its marks are pointers into that
memory. The copy operator copies the memory, resets the copy to its own memory, and moves the
marks over. The character set that it hands to the reset is that of the destination.
-/

namespace MatrixOdbc.Driver

open MysqlStrings

/-- `tempBuf`: the block it has allocated, the size of the block, and the position in it. -/
structure TempMemory where
  buf : Option ℕ
  bufLen : ℕ
  curPos : ℕ

namespace TempMemory

/-- `extend_buffer`; it throws when the position is outside. What `realloc` adds has no defined
content. -/
def extendBuffer (t : TempMemory) (len : ℕ) (heap : BlockHeap UInt8) :
    Option (TempMemory × BlockHeap UInt8) :=
  if t.bufLen < t.curPos then none
  else if t.bufLen - t.curPos < len then
    some ({ t with buf := some heap.length, bufLen := t.bufLen + len },
      heap.realloc t.buf (t.bufLen + len) 0)
  else some (t, heap)

/-- `add_to_buffer`. -/
def addToBuffer (t : TempMemory) (source : Ptr) (len : ℕ) (heap : BlockHeap UInt8) :
    Option (TempMemory × BlockHeap UInt8) :=
  if t.bufLen < t.curPos then none
  else do
    let extendBy := if len ≤ t.bufLen - t.curPos then 0 else t.bufLen - t.curPos + len
    let (t, heap) ← t.extendBuffer extendBy heap
    let buf ← t.buf
    let heap ← heap.memcpy ⟨buf, t.curPos⟩ source len
    some ({ t with curPos := t.curPos + len }, heap)

/-- `tempBuf(size)`. -/
def new (size : ℕ) (heap : BlockHeap UInt8) : Option (TempMemory × BlockHeap UInt8) :=
  if size ≠ 0 then extendBuffer ⟨none, 0, 0⟩ size heap else some (⟨none, 0, 0⟩, heap)

/-- `operator=`. The block that the destination had is not freed. -/
def assign (b : TempMemory) (heap : BlockHeap UInt8) : Option (TempMemory × BlockHeap UInt8) :=
  if b.bufLen ≠ 0 then do
    let (t, heap) ← extendBuffer ⟨none, 0, 0⟩ b.bufLen heap
    let buf ← t.buf
    let source ← b.buf
    let heap ← heap.memcpy ⟨buf, 0⟩ ⟨source, 0⟩ b.curPos
    some ({ t with curPos := b.curPos }, heap)
  else some (⟨none, 0, b.curPos⟩, heap)

end TempMemory

/-- `MY_PARSED_QUERY` with its pointers. -/
structure PointedQuery (γ : Type) where
  cs : Option γ
  buf : TempMemory
  query : Option Ptr
  queryEnd : Option Ptr
  lastChar : Option Ptr
  token2 : List ℕ
  paramPos : List ℕ
  queryType : QueryTypeEnum
  isBatch : Option Ptr

/-- `strlen`. -/
def strlenAt (heap : BlockHeap UInt8) (p : Ptr) : Option ℕ :=
  (heap.block p.block).bind fun content => (content.drop p.offset).findIdx? (· = 0)

/-- `query_len` of `reset`. -/
def queryLen (query : Ptr) (queryEnd : Option Ptr) (heap : BlockHeap UInt8) : Option ℕ :=
  match queryEnd with
  | some queryEnd => some (queryEnd.offset - query.offset)
  | none => strlenAt heap query

namespace PointedQuery

variable {γ : Type}

/-- `MY_PARSED_QUERY()`. The character set is not written. -/
def new (cs : Option γ) (heap : BlockHeap UInt8) : Option (PointedQuery γ × BlockHeap UInt8) := do
  let (buf, heap) ← TempMemory.new 1024 heap
  some (⟨cs, buf, none, none, none, [], [], .myqtOther, none⟩, heap)

/-- `reset`. -/
def reset (pq : PointedQuery γ) (query queryEnd : Option Ptr) (cs : Option γ)
    (heap : BlockHeap UInt8) : Option (PointedQuery γ × BlockHeap UInt8) :=
  let pq := { pq with
    token2 := [], paramPos := [], lastChar := none, isBatch := none
    queryType := .myqtOther, buf := { pq.buf with curPos := 0 } }
  match query with
  | none => some ({ pq with query := none, cs := none, queryEnd := none }, heap)
  | some query => do
    let len ← queryLen query queryEnd heap
    let (buf, heap) ← pq.buf.addToBuffer query (len + 1) heap
    let block ← buf.buf
    let heap ← heap.write ⟨block, len⟩ [0]
    some ({ pq with
      cs := cs, buf := buf, query := some ⟨block, 0⟩, queryEnd := some ⟨block, len⟩ }, heap)

/-- `GET_QUERY_LENGTH`. -/
def length (pq : PointedQuery γ) : ℕ :=
  (pq.queryEnd.elim 0 Ptr.offset) - (pq.query.elim 0 Ptr.offset)

/-- A mark of the source, as far behind the query of the copy. -/
def rebase (pq src : PointedQuery γ) (mark : Option Ptr) : Option Ptr :=
  mark.bind fun mark => pq.query.map fun query =>
    ⟨query.block, query.offset + (mark.offset - src.query.elim 0 Ptr.offset)⟩

/-- `operator=`, for a source that is another object. -/
def assign (pq src : PointedQuery γ) (heap : BlockHeap UInt8) :
    Option (PointedQuery γ × BlockHeap UInt8) := do
  let (buf, heap) ← src.buf.assign heap
  let front := buf.buf.map fun block => (⟨block, 0⟩ : Ptr)
  let rear := buf.buf.map fun block => (⟨block, src.length⟩ : Ptr)
  let (pq, heap) ← reset { pq with buf := buf } front rear pq.cs heap
  some ({ pq with
    lastChar := pq.rebase src src.lastChar
    isBatch := pq.rebase src src.isBatch
    queryType := src.queryType
    token2 := src.token2
    paramPos := src.paramPos }, heap)

/-- The blocks that a parsed query points into. -/
def storage (pq : PointedQuery γ) : List ℕ :=
  pq.buf.buf.toList ++
    ([pq.query, pq.queryEnd, pq.lastChar, pq.isBatch].filterMap id).map Ptr.block

end PointedQuery

/-- Parsed queries and the heap that their memory is in. -/
structure QueryState (ι γ : Type) where
  heap : BlockHeap UInt8
  obj : ι → PointedQuery γ

/-- What can be seen of a parsed query. The marks are offsets into the text. -/
structure QueryView (γ : Type) where
  text : Option (List UInt8)
  cs : Option γ
  token2 : List ℕ
  paramPos : List ℕ
  queryType : QueryTypeEnum
  lastChar : Option ℕ
  isBatch : Option ℕ
  deriving DecidableEq

namespace QueryState

variable {ι γ : Type} [DecidableEq ι]

/-- `dst = src`. -/
def assign (s : QueryState ι γ) (dst src : ι) : Option (QueryState ι γ) :=
  if dst = src then some s
  else do
    let (pq, heap) ← (s.obj dst).assign (s.obj src) s.heap
    some ⟨heap, Function.update s.obj dst pq⟩

/-- `reset` of one of the parsed queries. -/
def reset (s : QueryState ι γ) (i : ι) (query queryEnd : Option Ptr) (cs : Option γ) :
    Option (QueryState ι γ) := do
  let (pq, heap) ← (s.obj i).reset query queryEnd cs s.heap
  some ⟨heap, Function.update s.obj i pq⟩

/-- The text of a parsed query. -/
def text (s : QueryState ι γ) (i : ι) : Option (List UInt8) :=
  (s.obj i).query.bind fun query => s.heap.read query (s.obj i).length

/-- A byte of the text is overwritten in place. -/
def poke (s : QueryState ι γ) (i : ι) (offset : ℕ) (c : UInt8) : Option (QueryState ι γ) := do
  let query ← (s.obj i).query
  let heap ← s.heap.write ⟨query.block, query.offset + offset⟩ [c]
  some { s with heap := heap }

/-- `parse` of one of the parsed queries: the braces are blanked out in place. -/
def parse (ctype : γ → Ctype) (s : QueryState ι γ) (i : ι) : Option (QueryState ι γ) := do
  let query ← (s.obj i).query
  let cs ← (s.obj i).cs
  let text ← s.text i
  let parsed := Driver.parse (ctype cs) text
  let heap ← s.heap.write query parsed.query
  some ⟨heap, Function.update s.obj i { s.obj i with
    token2 := parsed.token2
    paramPos := parsed.paramPos
    lastChar := parsed.lastChar.map fun offset => ⟨query.block, query.offset + offset⟩
    queryType := parsed.queryType }⟩

/-- What can be seen of one of the parsed queries. -/
def view (s : QueryState ι γ) (i : ι) : QueryView γ where
  text := s.text i
  cs := (s.obj i).cs
  token2 := (s.obj i).token2
  paramPos := (s.obj i).paramPos
  queryType := (s.obj i).queryType
  lastChar := (s.obj i).lastChar.map fun p => p.offset - (s.obj i).query.elim 0 Ptr.offset
  isBatch := (s.obj i).isBatch.map fun p => p.offset - (s.obj i).query.elim 0 Ptr.offset

/-- After an assignment the destination is seen as the source was, the two share no memory, the
others are seen as before, and an assignment to itself changes nothing. -/
structure Copied (s s' : QueryState ι γ) (dst src : ι) : Prop where
  view_eq : s'.view dst = s.view src
  apart : dst ≠ src → ∀ b ∈ (s'.obj dst).storage, b ∉ (s'.obj src).storage
  frame : ∀ i, i ≠ dst → s'.view i = s.view i
  self : dst = src → s' = s

end QueryState

/-- There is no query. -/
structure PointedQuery.NoQuery {γ : Type} (pq : PointedQuery γ) : Prop where
  query : pq.query = none
  queryEnd : pq.queryEnd = none
  lastChar : pq.lastChar = none
  isBatch : pq.isBatch = none
  token2 : pq.token2 = []
  paramPos : pq.paramPos = []
  pos : pq.buf.curPos = 0

/-- The query begins a block and is followed by its terminator; the marks are in the block. -/
structure PointedQuery.HasQuery {γ : Type} (pq : PointedQuery γ) (b len : ℕ) : Prop where
  query : pq.query = some ⟨b, 0⟩
  queryEnd : pq.queryEnd = some ⟨b, len⟩
  lastChar : ∀ p ∈ pq.lastChar, p.block = b
  isBatch : ∀ p ∈ pq.isBatch, p.block = b
  pos : pq.buf.curPos = len + 1

/-- The memory of a parsed query is a block of the heap. -/
structure PointedQuery.Holds {γ : Type} (pq : PointedQuery γ) (heap : BlockHeap UInt8) (b : ℕ) :
    Prop where
  buf : pq.buf.buf = some b
  size : (heap.block b).map List.length = some pq.buf.bufLen
  pos : 0 < pq.buf.bufLen
  le : pq.buf.curPos ≤ pq.buf.bufLen
  query : pq.NoQuery ∨ ∃ len, pq.HasQuery b len

/-- Every parsed query has a block of its own. -/
structure QueryState.Valid {ι γ : Type} (s : QueryState ι γ) : Prop where
  holds : ∀ i, ∃ b, (s.obj i).Holds s.heap b
  own : ∀ i j b, (s.obj i).buf.buf = some b → (s.obj j).buf.buf = some b → i = j

/-- Parsed queries whose memory is in order. -/
structure QueryStore (ι γ : Type) extends QueryState ι γ where
  valid : toQueryState.Valid

section Copy

variable {ι γ : Type} {s s' : QueryState ι γ} {pq src : PointedQuery γ}
  {heap heap' : BlockHeap UInt8} {content : List UInt8} {t : TempMemory} {b len : ℕ}

/-- Where there is room nothing is allocated. -/
theorem TempMemory.addToBuffer_of_le {source : Ptr} (hbuf : t.buf = some b)
    (hpos : t.curPos + len ≤ t.bufLen) (hcopy : heap.memcpy ⟨b, t.curPos⟩ source len = some heap') :
    t.addToBuffer source len heap = some ({ t with curPos := t.curPos + len }, heap') := by
  have hroom : len ≤ t.bufLen - t.curPos := by omega
  have hinside : ¬ t.bufLen < t.curPos := by omega
  simp only [addToBuffer, extendBuffer, if_neg hinside, if_pos hroom, Nat.not_lt_zero, if_false,
    Option.bind_eq_bind, Option.bind_some, hbuf, hcopy]

/-- The copy of a buffer is a block that begins with what was written to the buffer. -/
theorem TempMemory.assign_eq (hbuf : t.buf = some b) (hblock : heap.block b = some content)
    (hsize : content.length = t.bufLen) (hpos : 0 < t.bufLen) (hle : t.curPos ≤ t.bufLen) :
    t.assign heap = some (⟨some heap.length, t.bufLen, t.curPos⟩,
      heap.alloc (content.take t.curPos ++ List.replicate (t.bufLen - t.curPos) 0)) := by
  have hsource : (heap.alloc (List.replicate t.bufLen 0)).block b = some content :=
    BlockHeap.block_alloc_of_some hblock
  have hcopy := @BlockHeap.memcpy_front _ _ _ _ t.curPos _ _ BlockHeap.block_alloc_self hsource
    (by omega) (by rw [List.length_replicate]; exact hle)
  rw [BlockHeap.put_alloc, List.drop_replicate] at hcopy
  simp only [assign, if_pos hpos.ne', extendBuffer, Nat.not_lt_zero, if_false, Nat.sub_self,
    if_pos hpos, Nat.zero_add, Option.bind_eq_bind, Option.bind_some, hbuf, BlockHeap.realloc]
  rw [hcopy, Option.bind_some]

/-- A reset to the own memory writes the terminator and leaves the rest of the memory. -/
theorem PointedQuery.reset_own {cs : Option γ} (hbuf : pq.buf.buf = some b)
    (hblock : heap.block b = some content) (hsize : content.length = pq.buf.bufLen)
    (hlen : len < pq.buf.bufLen) :
    pq.reset (some ⟨b, 0⟩) (some ⟨b, len⟩) cs heap =
      some (⟨cs, ⟨some b, pq.buf.bufLen, len + 1⟩, some ⟨b, 0⟩, some ⟨b, len⟩, none, [], [],
        .myqtOther, none⟩, heap.put b (Buffer.store content len [0])) := by
  have hcopy := @BlockHeap.memcpy_front _ _ _ _ (len + 1) _ _ hblock hblock (by omega) (by omega)
  rw [List.take_append_drop] at hcopy
  have hadd : TempMemory.addToBuffer ⟨some b, pq.buf.bufLen, 0⟩ ⟨b, 0⟩ (len + 1) heap =
      some (⟨some b, pq.buf.bufLen, len + 1⟩, heap.put b content) := by
    rw [TempMemory.addToBuffer_of_le rfl (by simp only; omega) hcopy]
    simp only [Nat.zero_add]
  have hput : (heap.put b content).block b = some content :=
    BlockHeap.block_put_self (BlockHeap.lt_length_of_block hblock)
  have hwrite : (heap.put b content).write ⟨b, len⟩ [0] =
      some (heap.put b (Buffer.store content len [0])) := by
    rw [BlockHeap.write_eq hput (by rw [List.length_singleton]; simp only; omega),
      BlockHeap.put_put]
  simp only [reset, queryLen, Nat.sub_zero, Option.bind_eq_bind, Option.bind_some, hbuf, hadd, hwrite]

/-- A text that fits into the memory is put in. -/
theorem PointedQuery.reset_text {text : List UInt8} {c : ℕ} {cs : Option γ}
    (hbuf : pq.buf.buf = some b) (hblock : heap.block b = some content)
    (hsize : content.length = pq.buf.bufLen) (htext : heap.block c = some text)
    (hlen : len < text.length) (hroom : len < pq.buf.bufLen) :
    ∃ pq' heap', pq.reset (some ⟨c, 0⟩) (some ⟨c, len⟩) cs heap = some (pq', heap') ∧
      pq'.query = some ⟨b, 0⟩ := by
  have hcopy := @BlockHeap.memcpy_front _ _ _ _ (len + 1) _ _ hblock htext (by omega) (by omega)
  have hadd : TempMemory.addToBuffer ⟨some b, pq.buf.bufLen, 0⟩ ⟨c, 0⟩ (len + 1) heap = some _ :=
    TempMemory.addToBuffer_of_le rfl (by simp only; omega) hcopy
  have hput := @BlockHeap.block_put_self _ _ (text.take (len + 1) ++ content.drop (len + 1)) _
    (BlockHeap.lt_length_of_block hblock)
  have hwrite := @BlockHeap.write_eq _ _ _ ⟨b, len⟩ [0] hput (by simp; omega)
  simp only [reset, queryLen, Nat.sub_zero, Option.bind_eq_bind, Option.bind_some, hbuf, hadd,
    hwrite]
  exact ⟨_, _, rfl, rfl⟩

/-- The position is behind the text, and the text ends inside the memory. -/
theorem PointedQuery.Holds.length_spec (h : pq.Holds heap b) :
    pq.query.elim 0 Ptr.offset = 0 ∧ pq.length < pq.buf.bufLen ∧
      (pq.buf.curPos = 0 ∧ pq.length = 0 ∨ pq.buf.curPos = pq.length + 1) := by
  have hpos := h.pos
  have hle := h.le
  obtain hnone | ⟨len, hquery⟩ := h.query
  · have hlength : pq.length = 0 := by simp [length, hnone.query, hnone.queryEnd]
    refine ⟨by rw [hnone.query, Option.elim_none], by omega, .inl ⟨hnone.pos, hlength⟩⟩
  · have hlength : pq.length = len := by simp [length, hquery.query, hquery.queryEnd]
    have hcur := hquery.pos
    refine ⟨by rw [hquery.query, Option.elim_some], by omega, .inr (by omega)⟩

/-- The terminator in the copied memory. -/
theorem store_copied {n pos : ℕ} (hn : content.length = n) (hlen : len < n)
    (hpos : pos = 0 ∧ len = 0 ∨ pos = len + 1) :
    Buffer.store (content.take pos ++ List.replicate (n - pos) 0) len [0] =
      content.take len ++ List.replicate (n - len) 0 := by
  obtain ⟨rfl, rfl⟩ | rfl := hpos
  · obtain ⟨n, rfl⟩ := Nat.exists_eq_succ_of_ne_zero hlen.ne'
    simp [Buffer.store, List.replicate_succ]
  · have htake : (content.take (len + 1)).length = len + 1 := by
      rw [List.length_take]
      omega
    have hrest : n - len = n - (len + 1) + 1 := by omega
    rw [Buffer.store, List.take_append_of_le_length (by omega), List.take_take,
      Nat.min_eq_left (by omega), List.length_singleton, List.drop_left' htake, hrest,
      List.replicate_succ, List.singleton_append]

/-- The copy in a block: the marks have been moved over, and the character set is that of the
destination. -/
def PointedQuery.copyIn (pq src : PointedQuery γ) (b : ℕ) : PointedQuery γ where
  cs := pq.cs
  buf := ⟨some b, src.buf.bufLen, src.length + 1⟩
  query := some ⟨b, 0⟩
  queryEnd := some ⟨b, src.length⟩
  lastChar := src.lastChar.map fun p => ⟨b, p.offset⟩
  token2 := src.token2
  paramPos := src.paramPos
  queryType := src.queryType
  isBatch := src.isBatch.map fun p => ⟨b, p.offset⟩

/-- The copy is in a new block. -/
theorem PointedQuery.assign_eq (hsrc : src.Holds heap b) (hblock : heap.block b = some content) :
    pq.assign src heap = some (pq.copyIn src heap.length,
        heap.alloc (content.take src.length ++
          List.replicate (src.buf.bufLen - src.length) 0)) := by
  obtain ⟨hfront, hlen, hpos⟩ := hsrc.length_spec
  have hsize : content.length = src.buf.bufLen := by
    have h := hsrc.size
    rw [hblock, Option.map_some] at h
    exact Option.some.inj h
  have hcopied : (content.take src.buf.curPos ++
      List.replicate (src.buf.bufLen - src.buf.curPos) 0).length = src.buf.bufLen := by
    have hle := hsrc.le
    rw [List.length_append, List.length_take, List.length_replicate]
    omega
  have hassign := TempMemory.assign_eq hsrc.buf hblock hsize hsrc.pos hsrc.le
  have hreset := @reset_own _
    { pq with buf := ⟨some heap.length, src.buf.bufLen, src.buf.curPos⟩ } _ _ _ _ pq.cs rfl
    BlockHeap.block_alloc_self hcopied hlen
  rw [BlockHeap.put_alloc, store_copied hsize hlen hpos] at hreset
  have hmark : ∀ mark : Option Ptr, (mark.bind fun mark => some (⟨heap.length,
      0 + (mark.offset - src.query.elim 0 Ptr.offset)⟩ : Ptr)) =
        mark.map fun p => ⟨heap.length, p.offset⟩ := by
    rintro (_ | mark)
    · rfl
    · simp [hfront]
  simp only [assign, hassign, Option.bind_eq_bind, Option.bind_some, Option.map_some, hreset,
    rebase, hmark]
  rfl

/-- The copy is in order. -/
theorem PointedQuery.holds_copyIn (hsrc : src.Holds heap b)
    (hsize : content.length = src.buf.bufLen) :
    (pq.copyIn src heap.length).Holds (heap.alloc content) heap.length := by
  obtain ⟨-, hlen, -⟩ := hsrc.length_spec
  have hpos := hsrc.pos
  refine ⟨rfl, ?_, hpos, by simp only [copyIn]; omega, .inr ⟨src.length, rfl, rfl, ?_, ?_, rfl⟩⟩
  · rw [BlockHeap.block_alloc_self, Option.map_some, hsize]
    rfl
  all_goals
    intro p hp
    obtain ⟨q, -, rfl⟩ := Option.map_eq_some_iff.mp hp
    rfl

/-- The block of a parsed query with its content. -/
theorem PointedQuery.Holds.exists_content (h : pq.Holds heap b) :
    ∃ content, heap.block b = some content ∧ content.length = pq.buf.bufLen :=
  Option.map_eq_some_iff.mp h.size

/-- The text is in the block. -/
theorem QueryState.text_eq {i : ι} (h : (s.obj i).Holds s.heap b)
    (hblock : s.heap.block b = some content) :
    s.text i = (s.obj i).query.map fun _ => content.take (s.obj i).length := by
  obtain ⟨xs, hxs, hsize⟩ := h.exists_content
  obtain rfl : xs = content := Option.some.inj (hxs.symm.trans hblock)
  obtain ⟨-, hlen, -⟩ := h.length_spec
  unfold text
  obtain hnone | ⟨len, hquery⟩ := h.query
  · rw [hnone.query]
    rfl
  · rw [hquery.query, Option.bind_some, Option.map_some,
      BlockHeap.read_eq hblock (by simp only; omega), List.drop_zero]

/-- A parsed query is seen as before when neither it nor its block changes. -/
theorem QueryState.view_congr {i : ι} (h : (s.obj i).Holds s.heap b) (hobj : s'.obj i = s.obj i)
    (hblock : s'.heap.block b = s.heap.block b) : s'.view i = s.view i := by
  obtain ⟨content, hcontent, -⟩ := h.exists_content
  have h' : (s'.obj i).Holds s'.heap b := by
    rw [hobj]
    exact ⟨h.buf, by rw [hblock]; exact h.size, h.pos, h.le, h.query⟩
  have htext : s'.text i = s.text i := by
    rw [text_eq h hcontent, text_eq h' (hblock.trans hcontent), hobj]
  simp only [view, htext, hobj]

/-- A parsed query stays in its block when the block keeps its size. -/
theorem PointedQuery.Holds.of_size (h : pq.Holds heap b)
    (hsize : (heap'.block b).map List.length = (heap.block b).map List.length) :
    pq.Holds heap' b :=
  ⟨h.buf, hsize.trans h.size, h.pos, h.le, h.query⟩

/-- Parsed queries stay in order when the sizes of their blocks stay. -/
theorem QueryState.Valid.of_size (hs : s.Valid)
    (hsize : ∀ b xs, s.heap.block b = some xs →
      (heap.block b).map List.length = (s.heap.block b).map List.length) :
    (⟨heap, s.obj⟩ : QueryState ι γ).Valid := by
  refine ⟨fun i => ?_, hs.own⟩
  obtain ⟨b, hholds⟩ := hs.holds i
  obtain ⟨xs, hxs, -⟩ := hholds.exists_content
  exact ⟨b, hholds.of_size (hsize b xs hxs)⟩

/-- A byte of the memory is overwritten, and the parsed queries stay. -/
theorem QueryState.poke_spec (hs : s.Valid) {i : ι}
    (hquery : (s.obj i).query ≠ none) (c : UInt8) :
    ∃ s', s.poke i 0 c = some s' ∧ s'.obj = s.obj := by
  obtain ⟨b, hholds⟩ := hs.holds i
  obtain ⟨content, hcontent, hsize⟩ := hholds.exists_content
  have hpos := hholds.pos
  obtain hnone | ⟨len, hhas⟩ := hholds.query
  · exact absurd hnone.query hquery
  · have hwrite := @BlockHeap.write_eq _ _ _ ⟨b, 0⟩ [c] hcontent (by simp; omega)
    simp only [poke, hhas.query, Option.bind_eq_bind, Option.bind_some, Nat.add_zero, hwrite]
    exact ⟨_, rfl, rfl⟩

variable [DecidableEq ι]

/-- One parsed query is written. It stays in its block or moves to a new one, and the other
blocks keep their sizes. -/
theorem QueryState.Valid.update (hs : s.Valid) {i : ι} (hpq : pq.Holds heap b)
    (hown : (s.obj i).buf.buf = some b ∨ s.heap.length ≤ b)
    (hsize : ∀ j c, j ≠ i → (s.obj j).buf.buf = some c →
      (heap.block c).map List.length = (s.heap.block c).map List.length) :
    (⟨heap, Function.update s.obj i pq⟩ : QueryState ι γ).Valid := by
  have hbuf : ∀ j c, j ≠ i → (s.obj j).buf.buf = some c → c ≠ b := by
    rintro j c hj hc rfl
    obtain hi | hnew := hown
    · exact hj (hs.own j i c hc hi)
    · obtain ⟨b', hholds⟩ := hs.holds j
      obtain ⟨content, hcontent, -⟩ := hholds.exists_content
      obtain rfl : b' = c := Option.some.inj (hholds.buf.symm.trans hc)
      exact absurd (BlockHeap.lt_length_of_block hcontent) (Nat.not_lt.mpr hnew)
  constructor
  · intro j
    by_cases hj : j = i
    · subst hj
      exact ⟨b, by simpa using hpq⟩
    · obtain ⟨c, hholds⟩ := hs.holds j
      refine ⟨c, ?_⟩
      simp only [Function.update_of_ne hj]
      exact hholds.of_size (hsize j c hj hholds.buf)
  · intro j k c hj hk
    by_cases hji : j = i <;> by_cases hki : k = i
    · rw [hji, hki]
    · subst hji
      simp only [Function.update_self, Function.update_of_ne hki] at hj hk
      exact absurd (Option.some.inj (hj.symm.trans hpq.buf)) (hbuf k c hki hk)
    · subst hki
      simp only [Function.update_self, Function.update_of_ne hji] at hj hk
      exact absurd (Option.some.inj (hk.symm.trans hpq.buf)) (hbuf j c hji hj)
    · simp only [Function.update_of_ne hji, Function.update_of_ne hki] at hj hk
      exact hs.own j k c hj hk

/-- The blocks that a parsed query points into are its own. -/
theorem PointedQuery.Holds.mem_storage (h : pq.Holds heap b) {c : ℕ} (hc : c ∈ pq.storage) :
    c = b := by
  unfold storage at hc
  simp only [h.buf, Option.toList_some, List.mem_append, List.mem_singleton, List.mem_map,
    List.mem_filterMap, id] at hc
  obtain rfl | ⟨p, ⟨mark, hmark, rfl⟩, rfl⟩ := hc
  · rfl
  · obtain hnone | ⟨len, hquery⟩ := h.query
    · simp [hnone.query, hnone.queryEnd, hnone.lastChar, hnone.isBatch] at hmark
    · simp only [hquery.query, hquery.queryEnd, List.mem_cons, Option.some.injEq,
        List.not_mem_nil, or_false] at hmark
      obtain rfl | rfl | hmark | hmark := hmark
      · rfl
      · rfl
      · exact hquery.lastChar p hmark.symm
      · exact hquery.isBatch p hmark.symm

/-- An assignment succeeds. The destination is then seen as the source, but with its own
character set, and with an empty text where the source has no query. -/
theorem QueryState.assign_spec (hs : s.Valid) {dst src : ι} (hne : dst ≠ src) :
    ∃ s', s.assign dst src = some s' ∧ s'.Valid ∧
      s'.view dst = { s.view src with
        text := some ((s.text src).getD []), cs := (s.obj dst).cs } ∧
      (∀ b ∈ (s'.obj dst).storage, b ∉ (s'.obj src).storage) ∧
      ∀ i, i ≠ dst → s'.view i = s.view i := by
  obtain ⟨b, hsrc⟩ := hs.holds src
  obtain ⟨content, hcontent, hsize⟩ := hsrc.exists_content
  obtain ⟨hfront, hlen, -⟩ := hsrc.length_spec
  have hassign := @PointedQuery.assign_eq _ (s.obj dst) _ _ _ _ hsrc hcontent
  have hcopied : (content.take (s.obj src).length ++
      List.replicate ((s.obj src).buf.bufLen - (s.obj src).length) 0).length =
        (s.obj src).buf.bufLen := by
    rw [List.length_append, List.length_take, List.length_replicate]
    omega
  generalize htext : content.take (s.obj src).length ++ List.replicate _ (0 : UInt8) = copied
    at hassign hcopied
  have hholds := @PointedQuery.holds_copyIn _ (s.obj dst) _ _ _ _ hsrc hcopied
  have hother : ∀ {i c}, (s.obj i).Holds s.heap c →
      (s.heap.alloc copied).block c = s.heap.block c := by
    intro i c hc
    obtain ⟨xs, hxs, -⟩ := hc.exists_content
    rw [hxs, BlockHeap.block_alloc_of_some hxs]
  have hframe : ∀ i, i ≠ dst → (⟨s.heap.alloc copied, Function.update s.obj dst
      ((s.obj dst).copyIn (s.obj src) s.heap.length)⟩ : QueryState ι γ).view i = s.view i := by
    intro i hi
    obtain ⟨c, hc⟩ := hs.holds i
    exact view_congr hc (Function.update_of_ne hi ..) (hother hc)
  refine ⟨_, by rw [assign, if_neg hne, hassign]; rfl, ?_, ?_, ?_, hframe⟩
  · refine hs.update hholds (.inr (Nat.le_refl _)) fun j c _ hc => ?_
    obtain ⟨c', hc'⟩ := hs.holds j
    obtain rfl : c' = c := Option.some.inj (hc'.buf.symm.trans hc)
    rw [hother hc']
  · have hdst : ((⟨s.heap.alloc copied, Function.update s.obj dst
        ((s.obj dst).copyIn (s.obj src) s.heap.length)⟩ : QueryState ι γ).obj dst).Holds
          (s.heap.alloc copied) s.heap.length := by
      simp only [Function.update_self]
      exact hholds
    have htake : copied.take (s.obj src).length = content.take (s.obj src).length := by
      rw [← htext, List.take_left' (by rw [List.length_take]; omega)]
    have hlength : ((s.obj dst).copyIn (s.obj src) s.heap.length).length = (s.obj src).length := by
      simp [PointedQuery.copyIn, PointedQuery.length]
    have hread : (s.text src).getD [] = content.take (s.obj src).length := by
      rw [text_eq hsrc hcontent]
      obtain hnone | ⟨len, hquery⟩ := hsrc.query
      · simp [hnone.query, PointedQuery.length, hnone.queryEnd]
      · simp [hquery.query]
    rw [view, text_eq hdst BlockHeap.block_alloc_self, hread]
    simp only [Function.update_self, hlength, htake, view, hfront]
    simp only [PointedQuery.copyIn, Option.map_some, Option.elim_some, Option.map_map,
      Function.comp_def]
  · intro c hc hc'
    simp only [Function.update_self, Function.update_of_ne hne.symm] at hc hc'
    have hold := BlockHeap.lt_length_of_block hcontent
    rw [hholds.mem_storage hc] at hc'
    exact absurd (hsrc.mem_storage hc') (Nat.ne_of_gt hold)

/-- What is seen after an assignment is what is seen of the source, exactly when there is a query
in the source and the destination has the same character set, or when nothing is assigned. -/
theorem QueryState.assign_copies_iff (s : QueryStore ι γ) (dst src : ι) :
    (∃ s', s.toQueryState.assign dst src = some s' ∧ s.toQueryState.Copied s' dst src) ↔
      dst = src ∨ (s.obj src).query ≠ none ∧ (s.obj dst).cs = (s.obj src).cs := by
  by_cases hself : dst = src
  · refine iff_of_true ⟨s.toQueryState, by rw [assign, if_pos hself], ?_⟩ (.inl hself)
    subst hself
    exact ⟨rfl, fun hne => absurd rfl hne, fun _ _ => rfl, fun _ => rfl⟩
  · rw [or_iff_right hself]
    obtain ⟨s', hassign, -, hview, hapart, hframe⟩ := assign_spec s.valid hself
    obtain ⟨b, hsrc⟩ := s.valid.holds src
    obtain ⟨content, hcontent, -⟩ := hsrc.exists_content
    have htext := text_eq hsrc hcontent
    constructor
    · rintro ⟨s'', hassign', hcopied⟩
      obtain rfl : s' = s'' := Option.some.inj (hassign.symm.trans hassign')
      have heq := hview.symm.trans hcopied.view_eq
      constructor
      · intro hnone
        have h := congrArg QueryView.text heq
        rw [hnone, Option.map_none] at htext
        simp [view, htext] at h
      · exact congrArg QueryView.cs heq
    · rintro ⟨hquery, hcs⟩
      refine ⟨s', hassign, ?_, fun _ => hapart, hframe, fun h => absurd h hself⟩
      obtain ⟨query, hsome⟩ := Option.ne_none_iff_exists'.mp hquery
      rw [hsome, Option.map_some] at htext
      rw [hview, hcs]
      simp [view, htext]

/-- What `add_to_buffer` leaves: the memory in its block or in a new one, and the other blocks as
they were. -/
theorem TempMemory.addToBuffer_spec {source : Ptr} {t' : TempMemory} (hbuf : t.buf = some b)
    (hsize : (heap.block b).map List.length = some t.bufLen)
    (h : t.addToBuffer source len heap = some (t', heap')) :
    ∃ b', t'.buf = some b' ∧ (b' = b ∨ b' = heap.length) ∧
      (heap'.block b').map List.length = some t'.bufLen ∧ t'.curPos = t.curPos + len ∧
      t'.curPos ≤ t'.bufLen ∧ t.bufLen ≤ t'.bufLen ∧
      ∀ c, c ≠ b → c ≠ heap.length → heap'.block c = heap.block c := by
  have hinside : ¬ t.bufLen < t.curPos := by
    intro hout
    rw [addToBuffer, if_pos hout] at h
    cases h
  rw [addToBuffer, if_neg hinside] at h
  by_cases hroom : len ≤ t.bufLen - t.curPos
  · simp only [if_pos hroom, extendBuffer, if_neg hinside, Nat.not_lt_zero, if_false,
      Option.bind_eq_bind, Option.bind_some, hbuf] at h
    obtain ⟨heap₁, hcopy, h⟩ := Option.bind_eq_some_iff.mp h
    cases h
    obtain ⟨hsizes, hblocks⟩ := BlockHeap.memcpy_spec hcopy
    exact ⟨b, rfl, .inl rfl, (hsizes b).trans hsize, rfl, by simp only; omega, Nat.le_refl _,
      fun c hc _ => hblocks c hc⟩
  · have hgrow : t.bufLen - t.curPos < t.bufLen - t.curPos + len := by omega
    simp only [if_neg hroom, extendBuffer, if_neg hinside, if_pos hgrow, Option.bind_eq_bind,
      Option.bind_some] at h
    obtain ⟨heap₁, hcopy, h⟩ := Option.bind_eq_some_iff.mp h
    cases h
    obtain ⟨hsizes, hblocks⟩ := BlockHeap.memcpy_spec hcopy
    refine ⟨heap.length, rfl, .inr rfl, (hsizes _).trans BlockHeap.size_realloc, rfl,
      by simp only; omega, by simp only; omega, fun c hc hc' => ?_⟩
    rw [hblocks c hc', BlockHeap.block_realloc_of_ne hc' fun d hd => ?_]
    obtain rfl : b = d := Option.some.inj (hbuf.symm.trans hd)
    exact hc

/-- What `reset` leaves: a parsed query in its block or in a new one, and the other blocks as they
were. -/
theorem PointedQuery.reset_spec {query queryEnd : Option Ptr} {cs : Option γ}
    {pq' : PointedQuery γ} (hpq : pq.Holds heap b)
    (h : pq.reset query queryEnd cs heap = some (pq', heap')) :
    ∃ b', pq'.Holds heap' b' ∧ (b' = b ∨ b' = heap.length) ∧
      ∀ c, c ≠ b → c ≠ heap.length → heap'.block c = heap.block c := by
  cases query with
  | none =>
    cases h
    exact ⟨b, ⟨hpq.buf, hpq.size, hpq.pos, Nat.zero_le _, .inl ⟨rfl, rfl, rfl, rfl, rfl, rfl, rfl⟩⟩,
      .inl rfl, fun _ _ _ => rfl⟩
  | some query =>
    unfold reset at h
    obtain ⟨len, -, h⟩ := Option.bind_eq_some_iff.mp h
    obtain ⟨⟨buf, heap₁⟩, hadd, h⟩ := Option.bind_eq_some_iff.mp h
    obtain ⟨b', hbuf, hwhere, hsize, hcur, hle, hmore, hblocks⟩ :=
      TempMemory.addToBuffer_spec (t := { pq.buf with curPos := 0 }) hpq.buf hpq.size hadd
    obtain ⟨block, hblock, h⟩ := Option.bind_eq_some_iff.mp h
    obtain ⟨heap₂, hwrite, h⟩ := Option.bind_eq_some_iff.mp h
    obtain rfl : b' = block := Option.some.inj (hbuf.symm.trans hblock)
    cases h
    have hpos := hpq.pos
    refine ⟨b', ⟨hbuf, (BlockHeap.length_block_write hwrite).trans hsize, ?_, hle,
      .inr ⟨len, rfl, rfl, by simp, by simp, ?_⟩⟩, hwhere, fun c hc hc' => ?_⟩
    · exact Nat.lt_of_lt_of_le hpos hmore
    · rw [hcur, Nat.zero_add]
    · have hne : c ≠ b' := by
        obtain rfl | rfl := hwhere
        · exact hc
        · exact hc'
      rw [BlockHeap.block_write_of_ne hwrite hne, hblocks c hc hc']

/-- What happens to the parsed queries of a program: the application allocates memory, a query is
put in, taken out, assigned, parsed, or overwritten in place. -/
inductive QueryStep (ctype : γ → Ctype) (s : QueryState ι γ) : QueryState ι γ → Prop
  | application (content : List UInt8) :
      QueryStep ctype s { s with heap := s.heap.alloc content }
  | reset {s' : QueryState ι γ} {i : ι} {query queryEnd : Option Ptr} {cs : Option γ}
      (h : s.reset i query queryEnd cs = some s') : QueryStep ctype s s'
  | assign {s' : QueryState ι γ} {dst src : ι} (h : s.assign dst src = some s') :
      QueryStep ctype s s'
  | poke {s' : QueryState ι γ} {i : ι} {offset : ℕ} {c : UInt8}
      (h : s.poke i offset c = some s') : QueryStep ctype s s'
  | parse {s' : QueryState ι γ} {i : ι} (h : s.parse ctype i = some s') : QueryStep ctype s s'

/-- A reset keeps the parsed queries in order. -/
theorem QueryState.valid_reset (hs : s.Valid) {i : ι} {query queryEnd : Option Ptr} {cs : Option γ}
    (h : s.reset i query queryEnd cs = some s') : s'.Valid := by
  obtain ⟨⟨pq, heap⟩, hreset, h⟩ := Option.bind_eq_some_iff.mp h
  cases h
  obtain ⟨b, hholds⟩ := hs.holds i
  obtain ⟨b', hpq, hwhere, hblocks⟩ := PointedQuery.reset_spec hholds hreset
  refine hs.update hpq ?_ fun j c hj hc => ?_
  · obtain rfl | rfl := hwhere
    · exact .inl hholds.buf
    · exact .inr (Nat.le_refl _)
  · have hne : c ≠ b := by
      rintro rfl
      exact hj (hs.own j i c hc hholds.buf)
    obtain ⟨c', hc'⟩ := hs.holds j
    obtain rfl : c' = c := Option.some.inj (hc'.buf.symm.trans hc)
    obtain ⟨xs, hxs, -⟩ := hc'.exists_content
    rw [hblocks c' hne (Nat.ne_of_lt (BlockHeap.lt_length_of_block hxs))]

/-- A query is taken out, and the others are seen as before. -/
theorem QueryState.reset_none (hs : s.Valid) (i : ι) :
    ∃ s', s.reset i none none none = some s' ∧ (s'.obj i).query = none ∧
      ∀ j, j ≠ i → s'.view j = s.view j := by
  refine ⟨_, rfl, by simp only [Function.update_self], fun j hj => ?_⟩
  obtain ⟨b, hholds⟩ := hs.holds j
  exact view_congr hholds (Function.update_of_ne hj ..) rfl

/-- Parsing keeps the parsed queries in order: the text is overwritten in place. -/
theorem QueryState.valid_parse (hs : s.Valid) {ctype : γ → Ctype} {i : ι}
    (h : s.parse ctype i = some s') : s'.Valid := by
  obtain ⟨query, hquery, h⟩ := Option.bind_eq_some_iff.mp h
  obtain ⟨cs, -, h⟩ := Option.bind_eq_some_iff.mp h
  obtain ⟨text, -, h⟩ := Option.bind_eq_some_iff.mp h
  obtain ⟨heap, hwrite, h⟩ := Option.bind_eq_some_iff.mp h
  cases h
  obtain ⟨b, hholds⟩ := hs.holds i
  obtain hnone | ⟨len, hhas⟩ := hholds.query
  · rw [hnone.query] at hquery
    cases hquery
  · obtain rfl : ⟨b, 0⟩ = query := Option.some.inj (hhas.query.symm.trans hquery)
    refine hs.update (b := b) ⟨hholds.buf, ?_, hholds.pos, hholds.le, .inr ⟨len, ?_⟩⟩
      (.inl hholds.buf) fun j c _ _ => BlockHeap.length_block_write hwrite
    · exact (BlockHeap.length_block_write hwrite).trans hholds.size
    · refine ⟨hhas.query, hhas.queryEnd, fun p hp => ?_, hhas.isBatch, hhas.pos⟩
      obtain ⟨offset, -, rfl⟩ := Option.map_eq_some_iff.mp hp
      rfl

/-- Every step keeps the parsed queries in order. -/
theorem QueryStep.valid {ctype : γ → Ctype} (h : QueryStep ctype s s') (hs : s.Valid) :
    s'.Valid := by
  cases h with
  | application content =>
    refine hs.of_size fun b xs hxs => ?_
    rw [BlockHeap.block_alloc_of_some hxs, hxs]
  | reset h => exact QueryState.valid_reset hs h
  | @assign _ dst src h =>
    by_cases hself : dst = src
    · rw [QueryState.assign, if_pos hself] at h
      cases h
      exact hs
    · obtain ⟨s'', hassign, hvalid, -⟩ := QueryState.assign_spec hs hself
      obtain rfl : s'' = s' := Option.some.inj (hassign.symm.trans h)
      exact hvalid
  | poke h =>
    obtain ⟨query, -, h⟩ := Option.bind_eq_some_iff.mp h
    obtain ⟨heap, hwrite, h⟩ := Option.bind_eq_some_iff.mp h
    cases h
    exact hs.of_size fun _ _ _ => BlockHeap.length_block_write hwrite
  | parse h => exact QueryState.valid_parse hs h

/-- The parsed queries are in order in every state of a run. -/
theorem QueryState.valid_of_run {ctype : γ → Ctype} (hs : s.Valid)
    (h : Relation.ReflTransGen (QueryStep ctype) s s') : s'.Valid := by
  induction h with
  | refl => exact hs
  | tail _ hstep ih => exact hstep.valid ih

end Copy

section Statement

/-- The two parsed queries of a statement. -/
inductive StatementQuery where
  | query | origQuery
  deriving DecidableEq

variable {γ : Type} {s s' : QueryState StatementQuery γ}

/-- The parsed queries of a new statement. Nothing has been written to their character sets. -/
def newStatement (cs cs' : Option γ) : Option (QueryState StatementQuery γ) := do
  let (query, heap) ← PointedQuery.new cs []
  let (origQuery, heap) ← PointedQuery.new cs' heap
  some ⟨heap, fun | .query => query | .origQuery => origQuery⟩

/-- A new parsed query has a new block and no query. -/
theorem PointedQuery.new_spec (cs : Option γ) (heap : BlockHeap UInt8) :
    ∃ pq heap', PointedQuery.new cs heap = some (pq, heap') ∧ pq.Holds heap' heap.length ∧
      heap'.length = heap.length + 1 ∧
      ∀ b xs, heap.block b = some xs → heap'.block b = some xs := by
  refine ⟨_, heap.alloc (List.replicate 1024 0), rfl, ?_, BlockHeap.length_alloc,
    fun _ _ => BlockHeap.block_alloc_of_some⟩
  refine ⟨rfl, ?_, Nat.succ_pos _, Nat.zero_le _, .inl ⟨rfl, rfl, rfl, rfl, rfl, rfl, rfl⟩⟩
  rw [BlockHeap.block_alloc_self, Option.map_some, List.length_replicate]

/-- The parsed queries of a new statement are in order. -/
theorem newStatement_valid {cs cs' : Option γ} (h : newStatement cs cs' = some s) : s.Valid := by
  obtain ⟨query, heap, hnew, hquery, hlength, -⟩ := PointedQuery.new_spec cs []
  obtain ⟨origQuery, heap', hnew', horig, -, hblocks⟩ := PointedQuery.new_spec cs' heap
  simp only [newStatement, hnew, hnew', Option.bind_eq_bind, Option.bind_some,
    Option.some.injEq] at h
  subst h
  obtain ⟨content, hcontent, -⟩ := hquery.exists_content
  have hquery' : query.Holds heap' 0 := by
    apply hquery.of_size
    rw [hcontent, hblocks _ _ hcontent]
  have hne : query.buf.buf ≠ origQuery.buf.buf := by
    rw [hquery.buf, horig.buf, hlength]
    simp
  refine ⟨fun i => ?_, fun i j b hi hj => ?_⟩
  · cases i with
    | query => exact ⟨0, hquery'⟩
    | origQuery => exact ⟨heap.length, horig⟩
  · cases i <;> cases j
    · rfl
    · exact absurd (hi.trans hj.symm) hne
    · exact absurd (hj.trans hi.symm) hne
    · rfl

/-- What is done to the query of a statement while the original one is saved. -/
inductive QueryEdit (ctype : γ → Ctype) (s : QueryState StatementQuery γ) :
    QueryState StatementQuery γ → Prop
  | application (content : List UInt8) :
      QueryEdit ctype s { s with heap := s.heap.alloc content }
  | reset {s' : QueryState StatementQuery γ} {query queryEnd : Option Ptr} {cs : Option γ}
      (h : s.reset .query query queryEnd cs = some s') : QueryEdit ctype s s'
  | poke {s' : QueryState StatementQuery γ} {offset : ℕ} {c : UInt8}
      (h : s.poke .query offset c = some s') : QueryEdit ctype s s'
  | parse {s' : QueryState StatementQuery γ} (h : s.parse ctype .query = some s') :
      QueryEdit ctype s s'

/-- `exit` of `do_query`: a saved query is put back. -/
def restoreQuery (s : QueryState StatementQuery γ) : Option (QueryState StatementQuery γ) :=
  if (s.obj .origQuery).query.isSome then
    (s.assign .query .origQuery).bind fun s => s.reset .origQuery none none none
  else some s

/-- An edit is a step, and the saved query is seen as before. -/
theorem QueryEdit.spec {ctype : γ → Ctype} (hs : s.Valid) (h : QueryEdit ctype s s') :
    s'.Valid ∧ s'.view .origQuery = s.view .origQuery := by
  obtain ⟨b, hquery⟩ := hs.holds .query
  obtain ⟨c, horig⟩ := hs.holds .origQuery
  obtain ⟨content, hcontent, -⟩ := horig.exists_content
  have hc := BlockHeap.lt_length_of_block hcontent
  have hother : StatementQuery.origQuery ≠ .query := by decide
  have hne : c ≠ b := by
    rintro rfl
    cases hs.own .query .origQuery c hquery.buf horig.buf
  have hpointer : ∀ p, (s.obj .query).query = some p → p.block = b := by
    intro p hp
    obtain hnone | ⟨len, hhas⟩ := hquery.query
    · rw [hnone.query] at hp
      cases hp
    · rw [hhas.query] at hp
      cases hp
      rfl
  cases h with
  | application content =>
    exact ⟨(@QueryStep.application _ _ _ ctype _ content).valid hs,
      QueryState.view_congr horig rfl (BlockHeap.block_alloc_of_ne (Nat.ne_of_lt hc))⟩
  | reset h =>
    refine ⟨QueryState.valid_reset hs h, ?_⟩
    obtain ⟨⟨pq, heap⟩, hreset, h⟩ := Option.bind_eq_some_iff.mp h
    cases h
    obtain ⟨b', -, -, hblocks⟩ := PointedQuery.reset_spec hquery hreset
    have hblock := hblocks c hne (Nat.ne_of_lt hc)
    refine QueryState.view_congr horig ?_ hblock
    simp only [Function.update_of_ne hother]
  | poke h =>
    refine ⟨(@QueryStep.poke _ _ _ ctype _ _ _ _ _ h).valid hs, ?_⟩
    obtain ⟨query, hp, h⟩ := Option.bind_eq_some_iff.mp h
    obtain ⟨heap, hwrite, h⟩ := Option.bind_eq_some_iff.mp h
    cases h
    refine QueryState.view_congr horig rfl (BlockHeap.block_write_of_ne hwrite ?_)
    rw [hpointer query hp]
    exact hne
  | parse h =>
    refine ⟨QueryState.valid_parse hs h, ?_⟩
    obtain ⟨query, hp, h⟩ := Option.bind_eq_some_iff.mp h
    obtain ⟨cs, -, h⟩ := Option.bind_eq_some_iff.mp h
    obtain ⟨text, -, h⟩ := Option.bind_eq_some_iff.mp h
    obtain ⟨heap, hwrite, h⟩ := Option.bind_eq_some_iff.mp h
    cases h
    refine QueryState.view_congr horig ?_ (BlockHeap.block_write_of_ne hwrite ?_)
    · simp only [Function.update_of_ne hother]
    · rw [hpointer query hp]
      exact hne

/-- Any run of edits keeps the saved query. -/
theorem QueryEdit.run_spec {ctype : γ → Ctype} (hs : s.Valid)
    (h : Relation.ReflTransGen (QueryEdit ctype) s s') :
    s'.Valid ∧ s'.view .origQuery = s.view .origQuery := by
  induction h with
  | refl => exact ⟨hs, rfl⟩
  | tail _ hstep ih =>
    obtain ⟨hvalid, hview⟩ := hstep.spec ih.1
    exact ⟨hvalid, hview.trans ih.2⟩

/-- In every run of a new statement, a query that is saved, edited and put back is seen as before
exactly when the editing leaves its character set: that of the saved copy is not used. -/
theorem restoreQuery_view_iff {ctype : γ → Ctype} {cs cs' : Option γ}
    {s₀ s₁ s₂ : QueryState StatementQuery γ} (hnew : newStatement cs cs' = some s₀)
    (hrun : Relation.ReflTransGen (QueryStep ctype) s₀ s) (hquery : (s.obj .query).query ≠ none)
    (hsave : s.assign .origQuery .query = some s₁)
    (hedit : Relation.ReflTransGen (QueryEdit ctype) s₁ s₂) :
    ∃ s₃, restoreQuery s₂ = some s₃ ∧ (s₃.obj .origQuery).query = none ∧
      (s₃.view .query = s.view .query ↔ (s₂.obj .query).cs = (s.obj .query).cs) := by
  have hs := QueryState.valid_of_run (newStatement_valid hnew) hrun
  obtain ⟨s', hassign, hvalid₁, hview₁, -⟩ :=
    QueryState.assign_spec hs (by decide : StatementQuery.origQuery ≠ .query)
  obtain rfl : s' = s₁ := Option.some.inj (hassign.symm.trans hsave)
  obtain ⟨hvalid₂, hview₂⟩ := QueryEdit.run_spec hvalid₁ hedit
  have hsaved : s₂.view .origQuery = { s.view .query with
      text := some ((s.text .query).getD []), cs := (s.obj .origQuery).cs } := hview₂.trans hview₁
  have htext : s₂.text .origQuery = some ((s.text .query).getD []) := congrArg QueryView.text hsaved
  have hsome : (s₂.obj .origQuery).query.isSome := by
    rw [QueryState.text] at htext
    cases hq : (s₂.obj .origQuery).query with
    | none => rw [hq] at htext; cases htext
    | some query => rfl
  obtain ⟨s₃, hassign₃, hvalid₃, hview₃, -, -⟩ :=
    QueryState.assign_spec hvalid₂ (by decide : StatementQuery.query ≠ .origQuery)
  obtain ⟨s₄, hreset, hnone, hframe⟩ := QueryState.reset_none hvalid₃ .origQuery
  refine ⟨s₄, by rw [restoreQuery, if_pos hsome, hassign₃, Option.bind_some, hreset], hnone, ?_⟩
  have hview : s₄.view .query = { s.view .query with cs := (s₂.obj .query).cs } := by
    rw [hframe .query (by decide), hview₃, hsaved, htext]
    obtain ⟨b', hholds'⟩ := hs.holds .query
    obtain ⟨content, hcontent, -⟩ := hholds'.exists_content
    obtain ⟨query, hsomequery⟩ := Option.ne_none_iff_exists'.mp hquery
    have htext' := QueryState.text_eq hholds' hcontent
    rw [hsomequery, Option.map_some] at htext'
    simp [QueryState.view, htext']
  rw [hview]
  constructor
  · exact fun h => congrArg QueryView.cs h
  · intro h
    rw [h]
    rfl

/-- The text of a positioned statement. -/
def positionedText : List UInt8 :=
  "DELETE FROM t WHERE CURRENT OF c".toList.map fun c => UInt8.ofNat c.toNat

/-- A positioned statement is prepared, saved, overwritten in place, and put back. -/
theorem restoreQuery_view_iff_positioned :
    ∃ s₀ s s₁ s₂ s₃ : QueryState StatementQuery ℕ, newStatement (some 45) (some 45) = some s₀ ∧
      QueryState.reset { s₀ with heap := s₀.heap.alloc positionedText } .query (some ⟨2, 0⟩)
        (some ⟨2, 31⟩) (some 45) = some s ∧
      s.assign .origQuery .query = some s₁ ∧ s₁.poke .query 0 0x20 = some s₂ ∧
      restoreQuery s₂ = some s₃ ∧ s₃.view .query = s.view .query := by
  let ctype : Ctype :=
    ⟨fun _ => (0, 1), fun _ _ _ => rfl, fun _ _ _ => ⟨Nat.zero_and _, Nat.zero_and _⟩⟩
  have hnew : newStatement (some 45) (some 45) = some (⟨[some (List.replicate 1024 0),
    some (List.replicate 1024 0)], fun
      | .query => ⟨some 45, ⟨some 0, 1024, 0⟩, none, none, none, [], [], .myqtOther, none⟩
      | .origQuery => ⟨some 45, ⟨some 1, 1024, 0⟩, none, none, none, [], [], .myqtOther, none⟩⟩ :
        QueryState StatementQuery ℕ) := rfl
  generalize hs₀ : (⟨[some (List.replicate 1024 0),
    some (List.replicate 1024 0)], _⟩ : QueryState StatementQuery ℕ) = s₀ at hnew
  have hblock : (s₀.heap.alloc positionedText).block 0 = some (List.replicate 1024 0) := by
    rw [← hs₀]; rfl
  have htext : (s₀.heap.alloc positionedText).block 2 = some positionedText := by
    rw [← hs₀]; rfl
  obtain ⟨pq, heap, hpq, hput⟩ := @PointedQuery.reset_text _ (s₀.obj .query) _ _ 0 31 _ 2
    (some 45) (by rw [← hs₀]) hblock (by rw [← hs₀, List.length_replicate]) htext (by decide)
    (by rw [← hs₀]; decide)
  have hreset : QueryState.reset { s₀ with heap := s₀.heap.alloc positionedText } .query
      (some ⟨2, 0⟩) (some ⟨2, 31⟩) (some 45) =
        some ⟨heap, Function.update s₀.obj .query pq⟩ := by
    simp only [QueryState.reset, hpq, Option.bind_eq_bind, Option.bind_some]
  generalize hs : QueryState.mk heap (Function.update s₀.obj .query pq) = s at hreset
  have hrun : Relation.ReflTransGen (QueryStep fun _ => ctype) s₀ s :=
    (Relation.ReflTransGen.single (.application positionedText)).tail (.reset hreset)
  have hquery : (s.obj .query).query ≠ none := by
    simp [← hs, hput]
  have hother : StatementQuery.query ≠ .origQuery := by decide
  have hvalid := QueryState.valid_of_run (newStatement_valid hnew) hrun
  obtain ⟨s₁, hsave, hvalid₁, -⟩ :=
    QueryState.assign_spec hvalid hother.symm
  have hobj : s₁.obj .query = s.obj .query := by
    rw [QueryState.assign, if_neg (by decide)] at hsave
    obtain ⟨⟨pq', heap'⟩, -, h⟩ := Option.bind_eq_some_iff.mp hsave
    cases h
    simp only [Function.update_of_ne hother]
  obtain ⟨s₂, hpoke, hsame⟩ := QueryState.poke_spec hvalid₁ (hobj ▸ hquery) 0x20
  obtain ⟨s₃, hrestore, -, hiff⟩ :=
    restoreQuery_view_iff hnew hrun hquery hsave (.single (.poke hpoke))
  exact ⟨s₀, s, s₁, s₂, s₃, hnew, hreset, hsave, hpoke, hrestore, hiff.mpr (by rw [hsame, hobj])⟩

/-- A positioned statement that is executed for the first time after `SQL_RESET_PARAMS`. -/
def positionedState : QueryState StatementQuery ℕ where
  heap := [some (positionedText ++ List.replicate 992 0), some (List.replicate 1024 0)]
  obj
    | .query => ⟨some 45, ⟨some 0, 1024, 33⟩, some ⟨0, 0⟩, some ⟨0, 32⟩, none,
        [0, 7, 12, 14, 20, 28, 31], [], .myqtOther, none⟩
    | .origQuery => ⟨none, ⟨some 1, 1024, 0⟩, none, none, none, [], [], .myqtOther, none⟩

theorem positionedState_valid : positionedState.Valid := by
  have htext : positionedText.length = 32 := by decide
  refine ⟨fun i => ?_, fun i j b hi hj => ?_⟩
  · cases i with
    | query =>
      refine ⟨0, rfl, ?_, by decide, by decide, .inr ⟨32, rfl, rfl, ?_, ?_, rfl⟩⟩
      · apply congrArg some
        rw [List.length_append, List.length_replicate, htext]
        rfl
      · intro p hp
        cases hp
      · intro p hp
        cases hp
    | origQuery =>
      refine ⟨1, rfl, ?_, by decide, by decide, .inl ⟨rfl, rfl, rfl, rfl, rfl, rfl, rfl⟩⟩
      exact congrArg some List.length_replicate
  · cases i <;> cases j <;> cases hi <;> cases hj <;> rfl

@[inherit_doc positionedState]
def positionedStatement : QueryStore StatementQuery ℕ := ⟨positionedState, positionedState_valid⟩

/-- The saved copy of a query has not its character set. -/
theorem savedQuery_not_copied : ¬ ∃ s', positionedStatement.toQueryState.assign .origQuery .query =
    some s' ∧ positionedStatement.toQueryState.Copied s' .origQuery .query := by
  rintro ⟨s', hassign', hcopied⟩
  obtain ⟨s'', hassign, -, hview, -⟩ := QueryState.assign_spec positionedStatement.valid
    (by decide : StatementQuery.origQuery ≠ .query)
  obtain rfl : s'' = s' := Option.some.inj (hassign.symm.trans hassign')
  have hcs := congrArg QueryView.cs (hview.symm.trans hcopied.view_eq)
  cases hcs

end Statement

end MatrixOdbc.Driver
