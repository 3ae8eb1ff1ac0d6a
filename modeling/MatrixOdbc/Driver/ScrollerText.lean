import MatrixOdbc.Driver.ScrollerWindows

/-!
# The text of a scroller

The query with its `LIMIT` clause is written in place, the offset by each move and the
count of the last window by a prefetch. Every write stays inside the buffer; the prefetch
of the last window takes the first byte of what follows the clause with it.
-/

namespace MatrixOdbc.Driver

open MatrixOdbc.Util

/-- A write over a part of a buffer. -/
theorem put_over {buf : List UInt8} {i : ℕ} (a b c xs : List UInt8) (hbuf : buf = a ++ (b ++ c))
    (hi : i = a.length) (hxs : xs.length = b.length) : put buf i xs = some (a ++ (xs ++ c)) := by
  subst hbuf
  rw [put, if_pos (by simp only [List.length_append]; omega), Buffer.store_append hi, hxs,
    List.drop_left, List.append_assoc]

/-- There is room for the query and its end. -/
theorem length_extendBuf (buf : List UInt8) (newSize : ℕ) :
    newSize ≤ (extendBuf buf newSize).length := by
  unfold extendBuf TempBuf.extendBuffer
  split
  · simp
  · next h =>
    simp only [TempBuf.bufLen, Option.getD_some] at h ⊢
    omega

/-- What is printed into a field that is large enough, with its end. -/
theorem snprintf_padLeft {width n : ℕ} (h : (Decimal.text n).length ≤ width) :
    snprintf (width + 1) (Decimal.padLeft width (Decimal.text n)) =
      Decimal.padLeft width (Decimal.text n) ++ [0] := by
  rw [snprintf, Nat.add_sub_cancel, List.take_of_length_le (Decimal.length_padLeft h).le]

/-- The field of a 64-bit number. -/
def field64 (n : ℕ) : List UInt8 := Decimal.padLeft (MAX64_BUFF_SIZE - 1) (Decimal.text n)

/-- The field of a 32-bit number. -/
def field32 (n : ℕ) : List UInt8 := Decimal.padLeft (MAX32_BUFF_SIZE - 1) (Decimal.text n)

theorem length_text64 {n : ℕ} (h : n < 2 ^ 64) :
    (Decimal.text n).length ≤ MAX64_BUFF_SIZE - 1 :=
  Decimal.length_text_le (by decide) (h.trans (by decide))

theorem length_text32 {n : ℕ} (h : n < 2 ^ 32) :
    (Decimal.text n).length ≤ MAX32_BUFF_SIZE - 1 :=
  Decimal.length_text_le (by decide) (h.trans (by decide))

theorem length_field64 {n : ℕ} (h : n < 2 ^ 64) : (field64 n).length = 20 :=
  Decimal.length_padLeft (length_text64 h)

theorem length_field32 {n : ℕ} (h : n < 2 ^ 32) : (field32 n).length = 10 :=
  Decimal.length_padLeft (length_text32 h)

/-- What follows the count: the rest of the query, and blanks where its own clause was. -/
def LimitClause.tail (limit : LimitClause) : List UInt8 :=
  limit.behind ++ List.replicate (limit.clause.length + 1) 0x20

/-- The text with these fields and this end. -/
def layout (limit : LimitClause) (offset count tail : List UInt8) : List UInt8 :=
  limit.before ++ (limitKeyword ++ (offset ++ (0x2c :: (count ++ tail))))

/-- The text that asks for a window. -/
def windowText (limit : LimitClause) (offset count : ℕ) : List UInt8 :=
  layout limit (field64 offset) (field32 count) limit.tail

/-- The text that asks for a window has a byte that is zero only if the query has one. -/
theorem zero_mem_windowText {limit : LimitClause} {offset count : ℕ}
    (h : 0 ∈ windowText limit offset count) : 0 ∈ limit.before ++ limit.behind := by
  simp only [windowText, layout, LimitClause.tail, List.mem_append, List.mem_cons] at h ⊢
  obtain hbefore | hkeyword | hoffset | hcomma | hcount | hbehind | hblank := h
  · exact Or.inl hbefore
  · exact absurd hkeyword (by decide)
  · exact absurd hoffset (Decimal.zero_notMem_padLeft _ _)
  · exact absurd hcomma (by decide)
  · exact absurd hcount (Decimal.zero_notMem_padLeft _ _)
  · exact Or.inr hbehind
  · exact absurd (List.eq_of_mem_replicate hblank) (by decide)

/-- The buffer of the scroller has a text of this layout. -/
structure Laid (limit : LimitClause) (s : LimitScroller) (offset count tail : List UInt8) :
    Prop where
  offsetPos : s.offsetPos = limit.before.length + 7
  queryLen : s.queryLen = limit.queryLength + 39
  offset_length : offset.length = 20
  count_length : count.length = 10
  tail_length : tail.length = limit.behind.length + limit.clause.length + 1
  buf : ∃ rest, s.buf = layout limit offset count tail ++ 0 :: rest

/-- What is sent is the text. -/
theorem Laid.sentText {limit : LimitClause} {s : LimitScroller} {offset count tail : List UInt8}
    (h : Laid limit s offset count tail) : s.sentText = layout limit offset count tail := by
  obtain ⟨rest, hbuf⟩ := h.buf
  have hlength : s.queryLen = (layout limit offset count tail).length := by
    simp only [layout, limitKeyword, List.length_append, List.length_cons, List.length_nil,
      h.offset_length, h.count_length, h.tail_length, h.queryLen, LimitClause.queryLength]
    omega
  rw [LimitScroller.sentText, hbuf, hlength, List.take_left]

/-- `n` blanks. -/
def blanks (n : ℕ) : List UInt8 := List.replicate n 0x20

@[simp] theorem length_blanks (n : ℕ) : (blanks n).length = n := List.length_replicate ..

theorem blanks_add (m n : ℕ) : blanks (m + n) = blanks m ++ blanks n := List.replicate_add ..

/-- The text of a new scroller, write by write. -/
theorem createText_eq (buf : List UInt8) {limit : LimitClause} {count : ℕ}
    (hcount : count < 2 ^ 32) :
    ∃ rest, LimitScroller.createText buf limit count =
      some (layout limit (0 :: blanks 19) (field32 count) limit.tail ++ 0 :: rest) := by
  have hroom := length_extendBuf buf (LimitScroller.queryLenOf limit + 1)
  obtain ⟨extended, hextended⟩ : ∃ extended,
      extendBuf buf (LimitScroller.queryLenOf limit + 1) = extended := ⟨_, rfl⟩
  rw [hextended, LimitScroller.queryLenOf] at hroom
  have hfield := length_field32 hcount
  have hprint : snprintf 12 (0x2c :: field32 count) = 0x2c :: (field32 count ++ [0]) := by
    have htake : (0x2c :: field32 count).take 11 = 0x2c :: field32 count :=
      List.take_of_length_le (by rw [List.length_cons, hfield])
    rw [snprintf, htake, List.cons_append]
  change limit.queryLength + 39 + 1 ≤ extended.length at hroom
  have hcreate : LimitScroller.createText buf limit count = (do
      let buf ← put extended 0 (blanks (limit.queryLength + 39))
      let buf ← put buf 0 limit.before
      let buf ← put buf limit.before.length (limitKeyword ++ [0])
      let buf ← put buf (limit.before.length + 7 + 20) (snprintf 12 (0x2c :: field32 count))
      let buf ← put buf (limit.before.length + 7 + 31) [0x20]
      let buf ← put buf (limit.before.length + 7 + 31) limit.behind
      put buf (limit.queryLength + 39) [0]) := by
    rw [← hextended]
    rfl
  obtain ⟨last, rest, hrest⟩ :
      ∃ last rest, extended.drop (limit.queryLength + 39) = last :: rest := by
    cases hdrop : extended.drop (limit.queryLength + 39) with
    | nil => exact absurd (List.drop_eq_nil_iff.mp hdrop) (by omega)
    | cons last rest => exact ⟨last, rest, rfl⟩
  have hpieces : blanks (limit.queryLength + 39) = blanks limit.before.length ++ (blanks 8 ++
      (blanks 19 ++ (blanks 12 ++ blanks (limit.behind.length + limit.clause.length)))) := by
    simp only [← blanks_add]
    congr 1
    unfold LimitClause.queryLength
    omega
  have htail : (0x20 : UInt8) :: blanks (limit.behind.length + limit.clause.length) =
      blanks limit.behind.length ++ blanks (limit.clause.length + 1) := by
    rw [← blanks_add, ← Nat.add_assoc]
    rfl
  refine ⟨rest, ?_⟩
  rw [hcreate, hprint, put_over (i := 0) [] (extended.take (limit.queryLength + 39)) (last :: rest)
    (blanks (limit.queryLength + 39)) (by rw [← hrest, List.nil_append, List.take_append_drop]) rfl
    (by rw [length_blanks, List.length_take]; omega), hpieces]
  simp only [Option.bind_eq_bind, Option.bind_some, List.nil_append, List.append_assoc]
  obtain ⟨free, hfree⟩ : ∃ free,
      blanks (limit.behind.length + limit.clause.length) ++ last :: rest = free := ⟨_, rfl⟩
  rw [hfree]
  -- the part before the clause
  rw [put_over (i := 0) [] (blanks limit.before.length)
    (blanks 8 ++ (blanks 19 ++ (blanks 12 ++ free))) limit.before (List.nil_append _).symm rfl (length_blanks _).symm]
  simp only [Option.bind_some, List.nil_append]
  -- the keyword, with its end
  rw [put_over limit.before (blanks 8) (blanks 19 ++ (blanks 12 ++ free)) (limitKeyword ++ [0])
    rfl rfl rfl]
  simp only [Option.bind_some]
  -- the count, with its end
  rw [put_over (limit.before ++ ((limitKeyword ++ [0]) ++ blanks 19)) (blanks 12) free
    (0x2c :: (field32 count ++ [0])) (by simp only [List.append_assoc])
    (by simp only [List.length_append, length_blanks, limitKeyword, List.length_cons,
      List.length_nil]) (by simp [hfield])]
  simp only [Option.bind_some]
  -- the end of the count becomes a blank
  rw [put_over (limit.before ++ ((limitKeyword ++ [0]) ++ (blanks 19 ++
      (0x2c :: field32 count)))) [0] free [0x20]
    (by simp only [List.append_assoc, List.cons_append])
    (by simp only [List.length_append, length_blanks, limitKeyword, List.length_cons,
      List.length_nil, hfield]) rfl]
  simp only [Option.bind_some, List.singleton_append]
  -- the rest of the query
  rw [put_over (limit.before ++ ((limitKeyword ++ [0]) ++ (blanks 19 ++
      (0x2c :: field32 count)))) (blanks limit.behind.length)
    (blanks (limit.clause.length + 1) ++ last :: rest) limit.behind
    (by rw [← hfree, ← List.cons_append, htail]; simp only [List.append_assoc])
    (by simp only [List.length_append, length_blanks, limitKeyword, List.length_cons,
      List.length_nil, hfield]) (length_blanks _).symm]
  simp only [Option.bind_some]
  -- the end of the query
  rw [put_over (layout limit (0 :: blanks 19) (field32 count) limit.tail) [last] rest [0]
    (by simp [layout, LimitClause.tail, blanks])
    (by simp [layout, LimitClause.tail, limitKeyword, hfield, LimitClause.queryLength]; omega) rfl]
  rfl

namespace LimitScroller

/-- A new scroller has the count of its windows in the text, and no offset yet. -/
theorem scrollerCreate_laid (buf : List UInt8) (limit : LimitClause) {rowCount maxRows : ℕ}
    (hcount : rowCount < 2 ^ 32) :
    ∃ s, scrollerCreate buf limit rowCount maxRows = some s ∧
      s.numbers = Scroller.create limit rowCount maxRows ∧
      Laid limit s (0 :: blanks 19)
        (field32 (Scroller.create limit rowCount maxRows).rowCount) limit.tail := by
  have hrow := Scroller.rowCountOf_lt limit maxRows hcount
  obtain ⟨rest, hbuf⟩ := @createText_eq buf limit _ hrow
  refine ⟨_, Option.map_eq_some_iff.mpr ⟨_, hbuf, rfl⟩, rfl, rfl, rfl, rfl, length_field32 hrow,
    ?_, rest, rfl⟩
  simp only [LimitClause.tail, List.length_append, List.length_replicate]
  omega

/-- A move writes the offset of the window. -/
theorem scrollerMove_laid {limit : LimitClause} {s : LimitScroller}
    {offset count tail : List UInt8} (h : Laid limit s offset count tail)
    (hrange : s.numbers.InRange) :
    ∃ s', s.scrollerMove = some s' ∧ s'.numbers = s.numbers.moveWindow ∧
      Laid limit s' (field64 s.numbers.nextOffset) count tail := by
  obtain ⟨rest, hbuf⟩ := h.buf
  have hfield := length_field64 hrange.nextOffset_lt
  have hprint : snprintf MAX64_BUFF_SIZE (Decimal.padLeft (MAX64_BUFF_SIZE - 1)
      (Decimal.text s.numbers.nextOffset)) = field64 s.numbers.nextOffset ++ [0] :=
    snprintf_padLeft (length_text64 hrange.nextOffset_lt)
  have hfirst : put s.buf s.offsetPos (field64 s.numbers.nextOffset ++ [0]) =
      some ((limit.before ++ limitKeyword) ++
        ((field64 s.numbers.nextOffset ++ [0]) ++ (count ++ tail ++ 0 :: rest))) := by
    apply put_over _ (offset ++ [0x2c])
    · simp [hbuf, layout]
    · simp [h.offsetPos, limitKeyword]
    · simp [hfield, h.offset_length]
  have hsecond : put ((limit.before ++ limitKeyword) ++
        ((field64 s.numbers.nextOffset ++ [0]) ++ (count ++ tail ++ 0 :: rest)))
      (s.offsetPos + (MAX64_BUFF_SIZE - 1)) [0x2c] =
      some ((limit.before ++ limitKeyword ++ field64 s.numbers.nextOffset) ++
        ([0x2c] ++ (count ++ tail ++ 0 :: rest))) := by
    apply put_over _ [0]
    · simp only [List.append_assoc]
    · simp [h.offsetPos, limitKeyword, hfield, MAX64_BUFF_SIZE]
    · rfl
  refine ⟨⟨s.numbers.moveWindow, (limit.before ++ limitKeyword ++ field64 s.numbers.nextOffset) ++
    ([0x2c] ++ (count ++ tail ++ 0 :: rest)), s.offsetPos, s.queryLen⟩, ?_, rfl, h.offsetPos,
    h.queryLen, hfield, h.count_length, h.tail_length, rest, ?_⟩
  · rw [scrollerMove, hprint, hfirst]
    simp only [Option.bind_eq_bind, Option.bind_some, hsecond, Option.pure_def]
  · simp [layout]

/-- The count of the last window is written, and the byte behind it becomes a blank. -/
theorem putCount_laid {limit : LimitClause} {s : LimitScroller}
    {offset count tail : List UInt8} {n : ℕ} (h : Laid limit s offset count tail)
    (hn : n < 2 ^ 32) :
    ∃ buf, s.putCount n = some buf ∧
      Laid limit { s with buf := buf } offset (field32 n) (0x20 :: tail.tail) := by
  obtain ⟨rest, hbuf⟩ := h.buf
  have hfield := length_field32 hn
  have hprint : snprintf MAX32_BUFF_SIZE (Decimal.padLeft (MAX32_BUFF_SIZE - 1)
      (Decimal.text n)) = field32 n ++ [0] := snprintf_padLeft (length_text32 hn)
  obtain ⟨c, further, htail⟩ : ∃ c further, tail = c :: further := by
    cases tail with
    | nil => exact absurd h.tail_length (by simp)
    | cons c further => exact ⟨c, further, rfl⟩
  subst htail
  have hfirst : put s.buf (s.offsetPos + MAX64_BUFF_SIZE) (field32 n ++ [0]) =
      some ((limit.before ++ limitKeyword ++ offset ++ [0x2c]) ++
        ((field32 n ++ [0]) ++ (further ++ 0 :: rest))) := by
    apply put_over _ (count ++ [c])
    · simp [hbuf, layout]
    · simp [h.offsetPos, limitKeyword, h.offset_length, MAX64_BUFF_SIZE]
    · simp [hfield, h.count_length]
  have hsecond : put ((limit.before ++ limitKeyword ++ offset ++ [0x2c]) ++
        ((field32 n ++ [0]) ++ (further ++ 0 :: rest)))
      (s.offsetPos + (MAX64_BUFF_SIZE + MAX32_BUFF_SIZE - 1)) [0x20] =
      some ((limit.before ++ limitKeyword ++ offset ++ [0x2c] ++ field32 n) ++
        ([0x20] ++ (further ++ 0 :: rest))) := by
    apply put_over _ [0]
    · simp only [List.append_assoc]
    · simp [h.offsetPos, limitKeyword, h.offset_length, hfield, MAX64_BUFF_SIZE, MAX32_BUFF_SIZE]
    · rfl
  refine ⟨(limit.before ++ limitKeyword ++ offset ++ [0x2c] ++ field32 n) ++
    ([0x20] ++ (further ++ 0 :: rest)), ?_, h.offsetPos, h.queryLen, h.offset_length, hfield, ?_,
    rest, ?_⟩
  · rw [putCount, hprint, hfirst]
    simp only [Option.bind_eq_bind, Option.bind_some, hsecond]
  · simpa using h.tail_length
  · simp [layout]

/-- The text asks for the window of the numbers; `tail` is what follows the count. -/
structure Written (limit : LimitClause) (s : LimitScroller) (tail : List UInt8) : Prop where
  inRange : s.numbers.InRange
  laid : Laid limit s (field64 s.numbers.windowOffset) (field32 s.numbers.windowCount) tail

/-- The prefetch writes the count of the last window. -/
def trims (numbers : Scroller) : Bool := numbers.reachesEnd && 0 < numbers.lastCount

/-- What follows the count behind a prefetch. -/
def tailAfter (numbers : Scroller) (tail : List UInt8) : List UInt8 :=
  if trims numbers then 0x20 :: tail.tail else tail

/-- A move keeps what follows the count. -/
theorem Written.move {limit : LimitClause} {s : LimitScroller} {tail : List UInt8}
    (h : Written limit s tail) : ∃ s', s.scrollerMove = some s' ∧
      s'.numbers = s.numbers.moveWindow ∧ Written limit s' tail := by
  obtain ⟨s', hmove, hnumbers, hlaid⟩ := scrollerMove_laid h.laid h.inRange
  refine ⟨s', hmove, hnumbers, hnumbers ▸ h.inRange.moveWindow, ?_⟩
  rw [hnumbers]
  exact hlaid

/-- A prefetch sends a text unless there is no window left. -/
theorem Written.prefetch {limit : LimitClause} {s : LimitScroller} {tail : List UInt8}
    (h : Written limit s tail) : ∃ s', s.scrollerPrefetch =
        some (s', s.numbers.trimWindow.isSome) ∧
      s'.numbers = s.numbers.call .prefetch ∧ Written limit s' (tailAfter s.numbers tail) := by
  cases htrim : s.numbers.trimWindow with
  | none =>
    have hcount : trims s.numbers = false := by
      unfold Scroller.trimWindow at htrim
      split at htrim
      · split at htrim
        · cases htrim
        · next hcount => simp [trims, hcount]
      · cases htrim
    refine ⟨s, by simp [scrollerPrefetch, htrim], by simp [Scroller.call, htrim], ?_⟩
    simpa [tailAfter, hcount] using h
  | some numbers =>
    have hrange := h.inRange.trimWindow htrim
    obtain ⟨rfl, hreaches⟩ | ⟨hreaches, hcount, hnumbers⟩ := Scroller.trimWindow_eq_some htrim
    · refine ⟨s, by simp [scrollerPrefetch, htrim, hreaches], by simp [Scroller.call, htrim], ?_⟩
      simpa [tailAfter, trims, hreaches] using h
    · obtain ⟨buf, hput, hlaid⟩ := putCount_laid h.laid hrange.windowCount_lt
      refine ⟨{ s with numbers := numbers, buf := buf }, ?_, by simp [Scroller.call, htrim],
        hrange, ?_⟩
      · simp [scrollerPrefetch, htrim, hreaches, hput]
      · have htail : tailAfter s.numbers tail = 0x20 :: tail.tail := by
          simp [tailAfter, trims, hreaches, hcount]
        have hoffset : numbers.windowOffset = s.numbers.windowOffset := by rw [hnumbers]
        rw [htail]
        refine ⟨hlaid.offsetPos, hlaid.queryLen, ?_, hlaid.count_length, hlaid.tail_length, ?_⟩
        · rw [hoffset]
          exact hlaid.offset_length
        · rw [hoffset]
          exact hlaid.buf

/-- The numbers and what follows the count, after a call. -/
theorem step_written {limit : LimitClause} {s : LimitScroller} {tail : List UInt8}
    {sent : List SentWindow} (h : Written limit s tail) (c : ScrollerCall) :
    ∃ s', s'.numbers = s.numbers.call c ∧
      Written limit s' (match c with | .move => tail | .prefetch => tailAfter s.numbers tail) ∧
      step (s, sent) c = some (s', match c with
        | .move => sent
        | .prefetch => if s.numbers.trimWindow.isSome then sent ++ [s'.sent] else sent) := by
  cases c with
  | move =>
    obtain ⟨s', hmove, hnumbers, hwritten⟩ := h.move
    exact ⟨s', hnumbers, hwritten, by simp [step, hmove]⟩
  | prefetch =>
    obtain ⟨s', hprefetch, hnumbers, hwritten⟩ := h.prefetch
    exact ⟨s', hnumbers, hwritten, by simp [step, hprefetch]⟩

/-- No write of a run leaves the buffer, and a run keeps what has been sent. -/
theorem run_total {limit : LimitClause} {s : LimitScroller} {tail : List UInt8}
    {sent : List SentWindow} (h : Written limit s tail) (calls : List ScrollerCall) :
    ∃ s' more, run (s, sent) calls = some (s', sent ++ more) := by
  induction calls generalizing s tail sent with
  | nil => exact ⟨s, [], by simp [run]⟩
  | cons c calls ih =>
    obtain ⟨s', -, hwritten, hstep⟩ := @step_written limit s tail sent h c
    cases c with
    | move =>
      obtain ⟨s'', more, hrun⟩ := @ih s' _ sent hwritten
      exact ⟨s'', more, by rw [run, hstep, Option.bind_some, hrun]⟩
    | prefetch =>
      dsimp only at hstep
      split at hstep
      · obtain ⟨s'', more, hrun⟩ := @ih s' _ (sent ++ [s'.sent]) hwritten
        exact ⟨s'', [s'.sent] ++ more, by
          rw [run, hstep, Option.bind_some, hrun, List.append_assoc]⟩
      · obtain ⟨s'', more, hrun⟩ := @ih s' _ sent hwritten
        exact ⟨s'', more, by rw [run, hstep, Option.bind_some, hrun]⟩

/-- What a scroller sends has its layout. -/
theorem Written.sent_text {limit : LimitClause} {s : LimitScroller} {tail : List UInt8}
    (h : Written limit s tail) : s.sent.text =
      layout limit (field64 s.sent.offset) (field32 s.sent.count) tail := h.laid.sentText

end LimitScroller

/-- The text that is sent is the query with the clause of the window, and a byte that is
zero is one of the query. -/
def SentWindow.LaidOut (limit : LimitClause) (w : SentWindow) : Prop :=
  w.text = windowText limit w.offset w.count ∧ (0 ∈ w.text → 0 ∈ limit.before ++ limit.behind)

/-- The last window is trimmed in a run. -/
def trimsIn : Scroller → List ScrollerCall → Bool
  | _, [] => false
  | s, .move :: calls => trimsIn s.moveWindow calls
  | s, .prefetch :: calls => LimitScroller.trims s || trimsIn (s.call .prefetch) calls

/-- The byte behind the count may be overwritten by a blank: there is none, or it is one. -/
def LimitClause.Harmless (limit : LimitClause) : Prop :=
  limit.behind = [] ∨ limit.behind.head? = some 0x20

/-- Every text that is sent since the query was executed first has its layout, and no write
leaves the buffer. -/
def TextsLaidOut (buf : List UInt8) (limit : LimitClause) (rowCount maxRows : ℕ)
    (calls : List ScrollerCall) : Prop :=
  ∃ state state', LimitScroller.start buf limit rowCount maxRows = some state ∧
    LimitScroller.run state calls = some state' ∧ ∀ w ∈ state'.2, w.LaidOut limit

/-- A blank over the first byte of the end leaves the end as it is exactly if that byte is
not needed. -/
theorem LimitClause.harmless_iff (limit : LimitClause) :
    limit.Harmless ↔ 0x20 :: limit.tail.tail = limit.tail := by
  unfold LimitClause.Harmless LimitClause.tail
  cases limit.behind with
  | nil => simp [List.replicate_succ]
  | cons c behind => simp [eq_comm]

namespace LimitScroller

/-- With the whole end of the query the text is laid out. -/
theorem Written.laidOut {limit : LimitClause} {s : LimitScroller}
    (h : Written limit s limit.tail) : s.sent.LaidOut limit := by
  have htext : s.sent.text = windowText limit s.sent.offset s.sent.count := h.sent_text
  refine ⟨htext, fun hzero => ?_⟩
  rw [htext] at hzero
  exact zero_mem_windowText hzero

/-- With another end it is not. -/
theorem Written.not_laidOut {limit : LimitClause} {s : LimitScroller} {tail : List UInt8}
    (h : Written limit s tail) (htail : tail ≠ limit.tail) : ¬ s.sent.LaidOut limit := by
  rintro ⟨htext, -⟩
  rw [h.sent_text, windowText, layout, layout] at htext
  have hfields := List.append_cancel_left (List.append_cancel_left (List.append_cancel_left htext))
  exact htail (List.append_cancel_left (List.cons.inj hfields).2)

/-- The first execution sends a text that is laid out. -/
theorem start_written (buf : List UInt8) (limit : LimitClause) {rowCount maxRows : ℕ}
    (hcount : rowCount < 2 ^ 32) (hmax : maxRows < 2 ^ 64) :
    ∃ s, start buf limit rowCount maxRows = some (s, [s.sent]) ∧
      s.numbers = (Scroller.create limit rowCount maxRows).moveWindow ∧
      Written limit s limit.tail := by
  have hrange := Scroller.inRange_create limit hcount hmax
  obtain ⟨s, hcreate, hnumbers, hlaid⟩ :=
    @scrollerCreate_laid buf limit rowCount maxRows hcount
  obtain ⟨s', hmove, hnumbers', hlaid'⟩ := scrollerMove_laid hlaid (hnumbers ▸ hrange)
  rw [hnumbers] at hnumbers' hlaid'
  refine ⟨s', by simp [start, hcreate, hmove], hnumbers', hnumbers' ▸ hrange.moveWindow, ?_⟩
  rw [hnumbers']
  exact hlaid'

/-- A run in which the end of the query is never touched, or not harmed. -/
theorem run_laidOut {limit : LimitClause} {s s' : LimitScroller} {sent sent' : List SentWindow}
    {calls : List ScrollerCall} (h : Written limit s limit.tail)
    (hcalls : limit.Harmless ∨ trimsIn s.numbers calls = false)
    (hsent : ∀ w ∈ sent, w.LaidOut limit) (hrun : run (s, sent) calls = some (s', sent')) :
    ∀ w ∈ sent', w.LaidOut limit := by
  induction calls generalizing s sent with
  | nil =>
    cases hrun
    exact hsent
  | cons c calls ih =>
    obtain ⟨t, hnumbers, hwritten, hstep⟩ := @step_written limit s limit.tail sent h c
    rw [run, hstep, Option.bind_some] at hrun
    cases c with
    | move =>
      refine ih hwritten (hcalls.imp_right fun hnever => ?_) hsent hrun
      rw [hnumbers]
      exact hnever
    | prefetch =>
      have hkept : tailAfter s.numbers limit.tail = limit.tail := by
        unfold tailAfter
        split
        · next htrims =>
          refine limit.harmless_iff.mp (hcalls.resolve_right ?_)
          simp [trimsIn, htrims]
        · rfl
      dsimp only at hwritten hrun
      rw [hkept] at hwritten
      have hfurther : limit.Harmless ∨ trimsIn t.numbers calls = false := by
        refine hcalls.imp_right fun hnever => ?_
        rw [trimsIn, Bool.or_eq_false_iff] at hnever
        rw [hnumbers]
        exact hnever.2
      split at hrun
      · refine ih hwritten hfurther ?_ hrun
        intro w hw
        obtain hw | hw := List.mem_append.mp hw
        · exact hsent w hw
        · rw [List.mem_singleton.mp hw]
          exact hwritten.laidOut
      · exact ih hwritten hfurther hsent hrun

/-- A run that trims the last window of a query whose end is harmed. -/
theorem run_not_laidOut {limit : LimitClause} {s s' : LimitScroller} {sent sent' : List SentWindow}
    {calls : List ScrollerCall} (h : Written limit s limit.tail) (hharm : ¬ limit.Harmless)
    (hcalls : trimsIn s.numbers calls = true) (hrun : run (s, sent) calls = some (s', sent')) :
    ∃ w ∈ sent', ¬ w.LaidOut limit := by
  induction calls generalizing s sent with
  | nil => cases hcalls
  | cons c calls ih =>
    obtain ⟨t, hnumbers, hwritten, hstep⟩ := @step_written limit s limit.tail sent h c
    rw [run, hstep, Option.bind_some] at hrun
    cases c with
    | move =>
      refine ih hwritten ?_ hrun
      rw [hnumbers]
      exact hcalls
    | prefetch =>
      dsimp only at hwritten hrun
      by_cases htrims : trims s.numbers = true
      · have hsome : s.numbers.trimWindow.isSome = true := by
          simp only [trims, Bool.and_eq_true, decide_eq_true_eq] at htrims
          simp [Scroller.trimWindow, htrims]
        rw [if_pos hsome] at hrun
        obtain ⟨s'', more, hmore⟩ := @run_total limit t _ (sent ++ [t.sent]) hwritten calls
        rw [hmore] at hrun
        cases hrun
        refine ⟨t.sent, by simp, hwritten.not_laidOut ?_⟩
        rw [tailAfter, if_pos htrims]
        exact fun heq => hharm (limit.harmless_iff.mpr heq)
      · rw [tailAfter, if_neg htrims] at hwritten
        have hfurther : trimsIn t.numbers calls = true := by
          rw [trimsIn, Bool.or_eq_true] at hcalls
          rw [hnumbers]
          exact hcalls.resolve_left htrims
        split at hrun
        · exact ih hwritten hfurther hrun
        · exact ih hwritten hfurther hrun

end LimitScroller

/-- The texts of a scroller are laid out exactly if the last window is not trimmed, or the
byte behind the count is not needed. -/
theorem textsLaidOut_iff (buf : List UInt8) (limit : LimitClause) (rowCount maxRows : ℕ)
    (calls : List ScrollerCall) (hcount : rowCount < 2 ^ 32) (hmax : maxRows < 2 ^ 64) :
    TextsLaidOut buf limit rowCount maxRows calls ↔
      limit.Harmless ∨
        trimsIn (Scroller.create limit rowCount maxRows).moveWindow calls = false := by
  obtain ⟨s, hstart, hnumbers, hwritten⟩ :=
    @LimitScroller.start_written buf limit rowCount maxRows hcount hmax
  obtain ⟨s', more, hrun⟩ := @LimitScroller.run_total limit s _ [s.sent] hwritten calls
  rw [← hnumbers]
  constructor
  · rintro ⟨state, state', hstart', hrun', hall⟩
    rw [hstart] at hstart'
    cases hstart'
    by_contra hbad
    rw [not_or, Bool.not_eq_false] at hbad
    obtain ⟨w, hw, hnot⟩ := LimitScroller.run_not_laidOut hwritten hbad.1 hbad.2 hrun'
    exact hnot (hall w hw)
  · intro hcalls
    refine ⟨_, _, hstart, hrun, ?_⟩
    refine LimitScroller.run_laidOut hwritten hcalls ?_ hrun
    intro w hw
    rw [List.mem_singleton.mp hw]
    exact hwritten.laidOut

theorem zero_lt_two_pow : 0 < 2 ^ 64 := Nat.two_pow_pos 64

theorem three_lt_two_pow : 3 < 2 ^ 32 := by decide

/-- `SELECT a FROM(SELECT a FROM t LIMIT 0,3)x`. -/
def derivedTable : LimitClause where
  offset := 0
  rowCount := 3
  before := [0x53, 0x45, 0x4c, 0x45, 0x43, 0x54, 0x20, 0x61, 0x20, 0x46, 0x52, 0x4f, 0x4d, 0x28,
    0x53, 0x45, 0x4c, 0x45, 0x43, 0x54, 0x20, 0x61, 0x20, 0x46, 0x52, 0x4f, 0x4d, 0x20, 0x74, 0x20]
  clause := [0x4c, 0x49, 0x4d, 0x49, 0x54, 0x20, 0x30, 0x2c, 0x33]
  behind := [0x29, 0x78]
  offset_lt := zero_lt_two_pow
  rowCount_lt := three_lt_two_pow

/-- The second of three windows is asked for, which is not trimmed. -/
theorem textsLaidOut_derivedTable : TextsLaidOut [] derivedTable 1 0 [.move, .prefetch] :=
  (textsLaidOut_iff [] derivedTable 1 0 [.move, .prefetch] (by decide) (by decide)).mpr
    (Or.inr (by decide))

/-- The last window of the derived table is asked for without its closing bracket. -/
theorem derivedTable_not_laidOut :
    ¬ ∀ (buf : List UInt8) (limit : LimitClause) (rowCount maxRows : ℕ)
      (calls : List ScrollerCall), rowCount < 2 ^ 32 → maxRows < 2 ^ 64 →
        TextsLaidOut buf limit rowCount maxRows calls := by
  intro hall
  obtain ⟨state, state', hstart, hrun, hlaid⟩ :=
    hall [] derivedTable 2 0 [.move, .prefetch] (by decide) (by decide)
  have hsent : ∃ w ∈ state'.2, ¬ w.LaidOut derivedTable := by
    obtain ⟨s, hstart', hnumbers, hwritten⟩ :=
      @LimitScroller.start_written [] derivedTable 2 0 (by decide) (by decide)
    rw [hstart] at hstart'
    cases hstart'
    refine LimitScroller.run_not_laidOut hwritten ?_ ?_ hrun
    · rintro (hnil | hblank)
      · cases hnil
      · exact absurd hblank (by decide)
    · rw [hnumbers]
      decide
  obtain ⟨w, hw, hnot⟩ := hsent
  exact hnot (hlaid w hw)

end MatrixOdbc.Driver
