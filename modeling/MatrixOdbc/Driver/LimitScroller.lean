import MatrixOdbc.Driver.ExtendedFetch
import MatrixOdbc.Foundations.Decimal
import MatrixOdbc.Util.TempBuf

/-!
# The scroller of a query

`MY_LIMIT_SCROLLER` with `calc_prefetch_number`, `scroller_create`, `scroller_move` and
`scroller_prefetch` of `driver/my_stmt.cc`: the numbers, as unsigned machine integers, and
the text of the query with its `LIMIT` clause, which is written in place.
-/

namespace MatrixOdbc.Driver

open MatrixOdbc.Util

/-- `MY_LIMIT_CLAUSE`, as `find_position4limit` fills it. The query is split into what is
before `begin`, between `begin` and `end`, and behind `end`. -/
structure LimitClause where
  offset : ℕ
  rowCount : ℕ
  before : List UInt8
  clause : List UInt8
  behind : List UInt8
  offset_lt : offset < 2 ^ 64
  rowCount_lt : rowCount < 2 ^ 32

/-- `query_len`. -/
def LimitClause.queryLength (limit : LimitClause) : ℕ :=
  limit.before.length + limit.clause.length + limit.behind.length

/-- `calc_prefetch_number`. -/
def calcPrefetchNumber (selected appFetchs maxRows : ℕ) : ℕ :=
  if selected = 0 then 0
  else
    let result := if 1 < appFetchs ∧ selected < appFetchs then appFetchs % 2 ^ 32 else selected
    let result := if 1 < appFetchs ∧ 0 < selected % appFetchs then
      appFetchs * (selected / appFetchs + 1) % 2 ^ 64 % 2 ^ 32 else result
    if 0 < maxRows ∧ maxRows < result then maxRows else result

namespace Scroller

/-- `total_rows` of a new scroller. -/
def totalRowsOf (limit : LimitClause) (maxRows : ℕ) : ℕ :=
  if limit.clause ≠ [] then
    if 0 < maxRows then min limit.rowCount maxRows else limit.rowCount
  else maxRows

/-- `row_count` of a new scroller whose window size was `rowCount`. -/
def rowCountOf (limit : LimitClause) (rowCount maxRows : ℕ) : ℕ :=
  if totalRowsOf limit maxRows < rowCount ∧ limit.clause ≠ [] then
    totalRowsOf limit maxRows % 2 ^ 32
  else rowCount

/-- The numbers `scroller_create` sets. -/
def create (limit : LimitClause) (rowCount maxRows : ℕ) : Scroller where
  rowCount := rowCountOf limit rowCount maxRows
  startOffset := limit.offset
  nextOffset := limit.offset
  totalRows := totalRowsOf limit maxRows
  windowOffset := 0
  windowCount := rowCountOf limit rowCount maxRows

/-- What `scroller_move` does to the numbers. -/
def moveWindow (s : Scroller) : Scroller :=
  { s with windowOffset := s.nextOffset, nextOffset := (s.nextOffset + s.rowCount) % 2 ^ 64 }

/-- The last window may be shorter: the comparison of `scroller_prefetch`. -/
def reachesEnd (s : Scroller) : Bool :=
  0 < s.totalRows ∧ (s.totalRows + s.startOffset) % 2 ^ 64 ≤ s.nextOffset

/-- `count` of `scroller_prefetch`: unsigned arithmetic, read as a `long long`. -/
def lastCount (s : Scroller) : ℤ :=
  toLong (((s.totalRows : ℤ) - (s.nextOffset - s.rowCount - s.startOffset)) % 2 ^ 64).toNat

/-- What `scroller_prefetch` does to the numbers; there are none for `SQL_NO_DATA`. -/
def trimWindow (s : Scroller) : Option Scroller :=
  if s.reachesEnd then
    if 0 < s.lastCount then some { s with windowCount := (s.lastCount % 2 ^ 32).toNat } else none
  else some s

@[simp] theorem moveWindow_rowCount (s : Scroller) : s.moveWindow.rowCount = s.rowCount := rfl
@[simp] theorem moveWindow_startOffset (s : Scroller) :
    s.moveWindow.startOffset = s.startOffset := rfl
@[simp] theorem moveWindow_totalRows (s : Scroller) : s.moveWindow.totalRows = s.totalRows := rfl
@[simp] theorem moveWindow_windowOffset (s : Scroller) :
    s.moveWindow.windowOffset = s.nextOffset := rfl
@[simp] theorem moveWindow_windowCount (s : Scroller) :
    s.moveWindow.windowCount = s.windowCount := rfl
theorem moveWindow_nextOffset (s : Scroller) :
    s.moveWindow.nextOffset = (s.nextOffset + s.rowCount) % 2 ^ 64 := rfl

/-- Only the number of rows of the window changes. -/
theorem trimWindow_eq_some {s s' : Scroller} (h : s.trimWindow = some s') :
    s' = s ∧ s.reachesEnd = false ∨ s.reachesEnd = true ∧ 0 < s.lastCount ∧
      s' = { s with windowCount := (s.lastCount % 2 ^ 32).toNat } := by
  unfold trimWindow at h
  split at h
  · next hreaches =>
    split at h
    · next hcount =>
      cases h
      exact Or.inr ⟨hreaches, hcount, rfl⟩
    · cases h
  · next hreaches =>
    cases h
    exact Or.inl ⟨rfl, by simpa using hreaches⟩

/-- The numbers are machine integers. -/
structure InRange (s : Scroller) : Prop where
  rowCount_lt : s.rowCount < 2 ^ 32
  startOffset_lt : s.startOffset < 2 ^ 64
  nextOffset_lt : s.nextOffset < 2 ^ 64
  totalRows_lt : s.totalRows < 2 ^ 64
  windowOffset_lt : s.windowOffset < 2 ^ 64
  windowCount_lt : s.windowCount < 2 ^ 32

theorem rowCountOf_lt (limit : LimitClause) {rowCount : ℕ} (maxRows : ℕ) (h : rowCount < 2 ^ 32) :
    rowCountOf limit rowCount maxRows < 2 ^ 32 := by
  unfold rowCountOf
  split
  · exact Nat.mod_lt _ (Nat.pow_pos (by decide))
  · exact h

theorem inRange_create (limit : LimitClause) {rowCount maxRows : ℕ} (hcount : rowCount < 2 ^ 32)
    (hmax : maxRows < 2 ^ 64) : (create limit rowCount maxRows).InRange where
  rowCount_lt := rowCountOf_lt limit maxRows hcount
  startOffset_lt := limit.offset_lt
  nextOffset_lt := limit.offset_lt
  totalRows_lt := by
    have hlimit := limit.rowCount_lt
    simp only [create, totalRowsOf]
    split
    · split <;> omega
    · exact hmax
  windowOffset_lt := Nat.pow_pos (by decide)
  windowCount_lt := rowCountOf_lt limit maxRows hcount

theorem InRange.moveWindow {s : Scroller} (h : s.InRange) : s.moveWindow.InRange where
  rowCount_lt := h.rowCount_lt
  startOffset_lt := h.startOffset_lt
  nextOffset_lt := Nat.mod_lt _ (Nat.pow_pos (by decide))
  totalRows_lt := h.totalRows_lt
  windowOffset_lt := h.nextOffset_lt
  windowCount_lt := h.windowCount_lt

theorem InRange.trimWindow {s s' : Scroller} (h : s.InRange) (htrim : s.trimWindow = some s') :
    s'.InRange := by
  obtain ⟨rfl, -⟩ | ⟨-, -, rfl⟩ := trimWindow_eq_some htrim
  · exact h
  · refine { h with windowCount_lt := ?_ }
    show (s.lastCount % 2 ^ 32).toNat < 2 ^ 32
    omega

end Scroller

/-- The size of the field of a 32-bit number, with the place behind it. -/
def MAX32_BUFF_SIZE : ℕ := 11

/-- The size of the field of a 64-bit number, with the place behind it. -/
def MAX64_BUFF_SIZE : ℕ := 21

/-- What `snprintf` writes into a buffer of this size. -/
def snprintf (size : ℕ) (text : List UInt8) : List UInt8 := text.take (size - 1) ++ [0]

/-- A write to the buffer, which has to stay inside. -/
def put (buf : List UInt8) (i : ℕ) (xs : List UInt8) : Option (List UInt8) :=
  if i + xs.length ≤ buf.length then some (Buffer.store buf i xs) else none

/-- `" LIMIT "`. -/
def limitKeyword : List UInt8 := [0x20, 0x4c, 0x49, 0x4d, 0x49, 0x54, 0x20]

/-- `MY_LIMIT_SCROLLER`: the numbers, the memory of `buf`, in which `query` stands at the
front, the distance of `offset_pos` from it, and `query_len`. -/
structure LimitScroller where
  numbers : Scroller
  buf : List UInt8
  offsetPos : ℕ
  queryLen : ℕ

/-- `extend_buf`: the position of the buffer stays at its front. -/
def extendBuf (buf : List UInt8) (newSize : ℕ) : List UInt8 :=
  ((TempBuf.mk (some buf) 0 (Nat.zero_le _)).extendBuffer newSize).buf.getD []

namespace LimitScroller

/-- `query_len` of the scroller. -/
def queryLenOf (limit : LimitClause) : ℕ :=
  limit.queryLength + (7 + MAX64_BUFF_SIZE + MAX32_BUFF_SIZE)

/-- The text that `scroller_create` writes. There is no result where a write leaves the
buffer. -/
def createText (buf : List UInt8) (limit : LimitClause) (rowCount : ℕ) : Option (List UInt8) := do
  let buf := extendBuf buf (queryLenOf limit + 1)
  let buf ← put buf 0 (List.replicate (queryLenOf limit) 0x20)
  let buf ← put buf 0 limit.before
  let limptr := limit.before.length
  let buf ← put buf limptr (limitKeyword ++ [0])
  let offsetPos := limptr + 7
  let buf ← put buf (offsetPos + MAX64_BUFF_SIZE - 1) (snprintf (MAX32_BUFF_SIZE + 1)
    (0x2c :: Decimal.padLeft (MAX32_BUFF_SIZE - 1) (Decimal.text rowCount)))
  let buf ← put buf (offsetPos + (MAX64_BUFF_SIZE + MAX32_BUFF_SIZE - 1)) [0x20]
  let buf ← put buf (offsetPos + MAX64_BUFF_SIZE + MAX32_BUFF_SIZE - 1) limit.behind
  put buf (queryLenOf limit) [0]

/-- `scroller_create`, with `row_count` as it has been set before. -/
def scrollerCreate (buf : List UInt8) (limit : LimitClause) (rowCount maxRows : ℕ) :
    Option LimitScroller :=
  let numbers := Scroller.create limit rowCount maxRows
  (createText buf limit numbers.rowCount).map fun buf =>
    ⟨numbers, buf, limit.before.length + 7, queryLenOf limit⟩

/-- `scroller_move`. -/
def scrollerMove (s : LimitScroller) : Option LimitScroller := do
  let buf ← put s.buf s.offsetPos (snprintf MAX64_BUFF_SIZE
    (Decimal.padLeft (MAX64_BUFF_SIZE - 1) (Decimal.text s.numbers.nextOffset)))
  let buf ← put buf (s.offsetPos + (MAX64_BUFF_SIZE - 1)) [0x2c]
  return { s with numbers := s.numbers.moveWindow, buf := buf }

/-- The count of the last window is written to the text. -/
def putCount (s : LimitScroller) (count : ℕ) : Option (List UInt8) := do
  let buf ← put s.buf (s.offsetPos + MAX64_BUFF_SIZE) (snprintf MAX32_BUFF_SIZE
    (Decimal.padLeft (MAX32_BUFF_SIZE - 1) (Decimal.text count)))
  put buf (s.offsetPos + (MAX64_BUFF_SIZE + MAX32_BUFF_SIZE - 1)) [0x20]

/-- The text that is sent: `query_len` bytes. -/
def sentText (s : LimitScroller) : List UInt8 := s.buf.take s.queryLen

/-- `scroller_prefetch` up to the execution of the query: whether there is one. -/
def scrollerPrefetch (s : LimitScroller) : Option (LimitScroller × Bool) :=
  match s.numbers.trimWindow with
  | none => some (s, false)
  | some numbers =>
    if s.numbers.reachesEnd then do
      let buf ← s.putCount numbers.windowCount
      return ({ s with numbers := numbers, buf := buf }, true)
    else some ({ s with numbers := numbers }, true)

end LimitScroller

/-- The calls that follow the creation of a scroller. -/
inductive ScrollerCall where
  | move | prefetch
  deriving DecidableEq

/-- A text that is sent, with the numbers of its window. -/
structure SentWindow where
  text : List UInt8
  offset : ℕ
  count : ℕ
  deriving DecidableEq

namespace LimitScroller

/-- The window that the scroller asks for. -/
def sent (s : LimitScroller) : SentWindow :=
  ⟨s.sentText, s.numbers.windowOffset, s.numbers.windowCount⟩

/-- One call; what it sends is put behind what was sent before. -/
def step (state : LimitScroller × List SentWindow) (call : ScrollerCall) :
    Option (LimitScroller × List SentWindow) :=
  match call with
  | .move => state.1.scrollerMove.map fun s => (s, state.2)
  | .prefetch => state.1.scrollerPrefetch.map fun (s, sends) =>
    (s, if sends then state.2 ++ [s.sent] else state.2)

/-- The calls one after the other. -/
def run (state : LimitScroller × List SentWindow) :
    List ScrollerCall → Option (LimitScroller × List SentWindow)
  | [] => some state
  | call :: calls => (step state call).bind fun state => run state calls

/-- The first execution of a query: the scroller is created and moved once, and the text is
sent. -/
def start (buf : List UInt8) (limit : LimitClause) (rowCount maxRows : ℕ) :
    Option (LimitScroller × List SentWindow) := do
  let s ← scrollerCreate buf limit rowCount maxRows
  let s ← s.scrollerMove
  return (s, [s.sent])

end LimitScroller

end MatrixOdbc.Driver
