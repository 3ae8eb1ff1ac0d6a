import MatrixOdbc.Driver.LimitScroller
import MatrixOdbc.Foundations.Windows

/-!
# The windows of a scroller

The numbers of a scroller through a run: the windows it asks for tile the rows of the
query, and the loop of `compute_cur_row` that moves it comes to its end.
-/

namespace MatrixOdbc.Driver

namespace Scroller

/-- The scroller after `k` moves, each followed by a prefetch. -/
def afterPairs (s : Scroller) : ℕ → Scroller
  | 0 => s
  | k + 1 => ((s.afterPairs k).moveWindow.trimWindow).getD (s.afterPairs k).moveWindow

/-- The windows that moves and prefetches ask for; there is none at `SQL_NO_DATA`. -/
def requests (s : Scroller) : Windows.Requests := fun k =>
  (s.afterPairs k).moveWindow.trimWindow.map fun s => (s.windowOffset, s.windowCount)

/-- A `long long` holds numbers that are not too large. -/
theorem toLong_emod {x : ℤ} (hlow : -2 ^ 63 ≤ x) (hhigh : x < 2 ^ 63) :
    toLong (x % 2 ^ 64).toNat = x := by
  unfold toLong
  by_cases hx : 0 ≤ x
  · have hmod : x % 2 ^ 64 = x := Int.emod_eq_of_lt hx (by omega)
    rw [hmod, if_pos (by omega)]
    omega
  · have hmod : x % 2 ^ 64 = x + 2 ^ 64 := by omega
    rw [hmod, if_neg (by omega)]
    omega

/-- The window after a move, cut to the total. -/
theorem trimWindow_moveWindow {s : Scroller} {k : ℕ} (hrange : s.InRange)
    (hnext : s.nextOffset = s.startOffset + k * s.rowCount)
    (hwrap : s.startOffset + (k + 1) * s.rowCount < 2 ^ 64)
    (hend : s.startOffset + s.totalRows < 2 ^ 64) (hlong : k * s.rowCount ≤ s.totalRows + 2 ^ 63) :
    s.moveWindow.trimWindow =
      if 0 < s.totalRows ∧ s.totalRows ≤ k * s.rowCount then none
      else if 0 < s.totalRows ∧ s.totalRows ≤ (k + 1) * s.rowCount then
        some { s.moveWindow with windowCount := s.totalRows - k * s.rowCount }
      else some s.moveWindow := by
  have hstep : (k + 1) * s.rowCount = k * s.rowCount + s.rowCount := Nat.succ_mul k s.rowCount
  have hnext' : s.moveWindow.nextOffset = s.startOffset + (k + 1) * s.rowCount := by
    rw [moveWindow_nextOffset, Nat.mod_eq_of_lt (by omega)]
    omega
  have hreaches : s.moveWindow.reachesEnd = true ↔
      0 < s.totalRows ∧ s.totalRows ≤ (k + 1) * s.rowCount := by
    simp only [reachesEnd, moveWindow_totalRows, moveWindow_startOffset, hnext', Bool.decide_and,
      Bool.and_eq_true, decide_eq_true_eq]
    rw [Nat.mod_eq_of_lt (by omega)]
    omega
  have hrow := hrange.rowCount_lt
  by_cases hlast : 0 < s.totalRows ∧ s.totalRows ≤ (k + 1) * s.rowCount
  · have hcount : s.moveWindow.lastCount = (s.totalRows : ℤ) - k * s.rowCount := by
      have hexact : ((s.totalRows : ℤ) - (s.moveWindow.nextOffset - s.rowCount - s.startOffset)) =
          (s.totalRows : ℤ) - k * s.rowCount := by
        rw [hnext']
        push_cast
        ring
      rw [lastCount, moveWindow_totalRows, moveWindow_startOffset, moveWindow_rowCount, hexact]
      apply toLong_emod
      · have : ((k * s.rowCount : ℕ) : ℤ) ≤ s.totalRows + 2 ^ 63 := by exact_mod_cast hlong
        push_cast at this
        omega
      · have : ((s.totalRows : ℕ) : ℤ) ≤ (k * s.rowCount + s.rowCount : ℕ) := by
          exact_mod_cast hstep ▸ hlast.2
        push_cast at this
        omega
    rw [trimWindow, if_pos (hreaches.mpr hlast), hcount]
    by_cases hover : s.totalRows ≤ k * s.rowCount
    · have : ((s.totalRows : ℕ) : ℤ) ≤ (k * s.rowCount : ℕ) := by exact_mod_cast hover
      push_cast at this
      rw [if_neg (by omega), if_pos ⟨hlast.1, hover⟩]
    · have hlt : ((k * s.rowCount : ℕ) : ℤ) < s.totalRows := by
        exact_mod_cast Nat.lt_of_not_le hover
      push_cast at hlt
      have hvalue : (((s.totalRows : ℤ) - k * s.rowCount) % 2 ^ 32).toNat =
          s.totalRows - k * s.rowCount := by
        have : ((s.totalRows - k * s.rowCount : ℕ) : ℤ) = (s.totalRows : ℤ) - k * s.rowCount := by
          rw [Nat.cast_sub (by omega)]
          push_cast
          rfl
        rw [← this]
        omega
      rw [if_pos (by omega), if_neg (fun h => hover h.2), if_pos hlast, hvalue]
  · rw [trimWindow, if_neg (fun h => hlast (hreaches.mp h)), if_neg (by omega), if_neg hlast]

/-- A scroller whose numbers do not overflow in the next `m` moves. -/
structure Fits (s : Scroller) (m : ℕ) : Prop where
  moves : s.startOffset + m * s.rowCount < 2 ^ 64
  last : s.startOffset + s.totalRows < 2 ^ 64
  count : (m - 1) * s.rowCount ≤ s.totalRows + 2 ^ 63

/-- A scroller that has not been moved. -/
structure IsNew (s : Scroller) : Prop where
  inRange : s.InRange
  nextOffset : s.nextOffset = s.startOffset
  windowCount : s.windowCount = s.rowCount

theorem isNew_create (limit : LimitClause) {rowCount maxRows : ℕ} (hcount : rowCount < 2 ^ 32)
    (hmax : maxRows < 2 ^ 64) : (create limit rowCount maxRows).IsNew :=
  ⟨inRange_create limit hcount hmax, rfl, rfl⟩

/-- The numbers after `k` pairs of a run. -/
structure AfterPairs (s t : Scroller) (k : ℕ) : Prop where
  inRange : t.InRange
  rowCount : t.rowCount = s.rowCount
  startOffset : t.startOffset = s.startOffset
  totalRows : t.totalRows = s.totalRows
  nextOffset : t.nextOffset = s.startOffset + k * s.rowCount
  windowCount : s.totalRows = 0 ∨ k * s.rowCount < s.totalRows → t.windowCount = s.rowCount

/-- One pair keeps what is known of the numbers. -/
theorem AfterPairs.succ {s t : Scroller} {k m : ℕ} (h : AfterPairs s t k) (hfits : s.Fits m)
    (hk : k < m) : AfterPairs s (t.moveWindow.trimWindow.getD t.moveWindow) (k + 1) := by
  have hmoves : (k + 1) * s.rowCount ≤ m * s.rowCount := Nat.mul_le_mul_right _ hk
  have hcount : k * s.rowCount ≤ (m - 1) * s.rowCount := Nat.mul_le_mul_right _ (by omega)
  have hstep : (k + 1) * s.rowCount = k * s.rowCount + s.rowCount := Nat.succ_mul k s.rowCount
  have htrim := trimWindow_moveWindow h.inRange (k := k)
    (by rw [h.nextOffset, h.startOffset, h.rowCount])
    (by rw [h.startOffset, h.rowCount]; have := hfits.moves; omega)
    (by rw [h.startOffset, h.totalRows]; exact hfits.last)
    (by rw [h.rowCount, h.totalRows]; have := hfits.count; omega)
  have hnext : t.moveWindow.nextOffset = s.startOffset + (k + 1) * s.rowCount := by
    have := hfits.moves
    rw [moveWindow_nextOffset, h.nextOffset, h.rowCount, Nat.mod_eq_of_lt (by omega)]
    omega
  rw [h.rowCount, h.totalRows] at htrim
  have hmoved : AfterPairs s t.moveWindow (k + 1) ∨
      0 < s.totalRows ∧ s.totalRows ≤ (k + 1) * s.rowCount := by
    by_cases hlast : 0 < s.totalRows ∧ s.totalRows ≤ (k + 1) * s.rowCount
    · exact Or.inr hlast
    · refine Or.inl ⟨h.inRange.moveWindow, h.rowCount, h.startOffset, h.totalRows, hnext, ?_⟩
      intro hfurther
      apply h.windowCount
      omega
  by_cases hover : 0 < s.totalRows ∧ s.totalRows ≤ k * s.rowCount
  · rw [htrim, if_pos hover]
    exact ⟨h.inRange.moveWindow, h.rowCount, h.startOffset, h.totalRows, hnext, by omega⟩
  · by_cases hlast : 0 < s.totalRows ∧ s.totalRows ≤ (k + 1) * s.rowCount
    · rw [if_neg hover, if_pos hlast] at htrim
      have hrange := h.inRange.moveWindow.trimWindow htrim
      rw [htrim]
      exact ⟨hrange, h.rowCount, h.startOffset, h.totalRows, hnext, by omega⟩
    · rw [htrim, if_neg hover, if_neg hlast]
      exact hmoved.resolve_right hlast

/-- The numbers after some pairs of a run. -/
theorem afterPairs_spec {s : Scroller} {m : ℕ} (hnew : s.IsNew) (hfits : s.Fits m) {k : ℕ}
    (hk : k ≤ m) : AfterPairs s (s.afterPairs k) k := by
  induction k with
  | zero => exact ⟨hnew.inRange, rfl, rfl, rfl, by simp [afterPairs, hnew.nextOffset],
      fun _ => hnew.windowCount⟩
  | succ k ih => exact (ih (by omega)).succ hfits (by omega)

/-- The requests of a run are the pieces of the rows from the first one on. -/
theorem requests_eq {s : Scroller} {m k : ℕ} (hnew : s.IsNew) (hfits : s.Fits m) (hk : k < m) :
    s.requests k = Windows.window s.startOffset s.totalRows s.rowCount k := by
  have h := afterPairs_spec hnew hfits hk.le
  have hmoves : (k + 1) * s.rowCount ≤ m * s.rowCount := Nat.mul_le_mul_right _ hk
  have hcount : k * s.rowCount ≤ (m - 1) * s.rowCount := Nat.mul_le_mul_right _ (by omega)
  have hstep : (k + 1) * s.rowCount = k * s.rowCount + s.rowCount := Nat.succ_mul k s.rowCount
  have htrim := trimWindow_moveWindow h.inRange (k := k)
    (by rw [h.nextOffset, h.startOffset, h.rowCount])
    (by rw [h.startOffset, h.rowCount]; have := hfits.moves; omega)
    (by rw [h.startOffset, h.totalRows]; exact hfits.last)
    (by rw [h.rowCount, h.totalRows]; have := hfits.count; omega)
  rw [h.rowCount, h.totalRows] at htrim
  unfold requests Windows.window
  by_cases hover : 0 < s.totalRows ∧ s.totalRows ≤ k * s.rowCount
  · rw [htrim, if_pos hover, if_pos hover, Option.map_none]
  · rw [if_neg hover] at htrim ⊢
    by_cases hlast : 0 < s.totalRows ∧ s.totalRows ≤ (k + 1) * s.rowCount
    · rw [htrim, if_pos hlast, if_pos hlast.1, Option.map_some, moveWindow_windowOffset,
        h.nextOffset, Nat.min_eq_right (by omega)]
    · rw [htrim, if_neg hlast, Option.map_some, moveWindow_windowOffset, h.nextOffset,
        moveWindow_windowCount, h.windowCount (by omega)]
      by_cases htotal : 0 < s.totalRows
      · rw [if_pos htotal, Nat.min_eq_left (by omega)]
      · rw [if_neg htotal]

/-- Without a total the numbers only move on, behind the last one from the front. -/
theorem afterPairs_of_unlimited {s : Scroller} (htotal : s.totalRows = 0)
    (hnext : s.nextOffset < 2 ^ 64) (k : ℕ) :
    s.afterPairs k = { s with
      windowOffset := (s.afterPairs k).windowOffset
      nextOffset := (s.nextOffset + k * s.rowCount) % 2 ^ 64 } := by
  induction k with
  | zero =>
    rw [Nat.zero_mul, Nat.add_zero, Nat.mod_eq_of_lt hnext]
    rfl
  | succ k ih =>
    have hreaches : (s.afterPairs k).moveWindow.reachesEnd = false := by
      rw [ih]
      simp [reachesEnd, htotal]
    have hstep : (k + 1) * s.rowCount = k * s.rowCount + s.rowCount := Nat.succ_mul k s.rowCount
    rw [afterPairs, trimWindow, hreaches, ih]
    simp only [Bool.false_eq_true, if_false, Option.getD_some, moveWindow, Nat.mod_add_mod, hstep,
      Nat.add_assoc]

/-- Without a total every pair asks for a window of the same size, at an offset that is cut
to 64 bits. -/
theorem requests_of_unlimited {s : Scroller} (htotal : s.totalRows = 0)
    (hnext : s.nextOffset < 2 ^ 64) (k : ℕ) :
    s.requests k = some ((s.nextOffset + k * s.rowCount) % 2 ^ 64, s.windowCount) := by
  have hreaches : (s.afterPairs k).moveWindow.reachesEnd = false := by
    rw [afterPairs_of_unlimited htotal hnext k]
    simp [reachesEnd, htotal]
  rw [requests, trimWindow, hreaches, afterPairs_of_unlimited htotal hnext k]
  rfl

/-- The size of the windows of a query. -/
theorem rowCountOf_pos {limit : LimitClause} {rowCount maxRows : ℕ} (hcount : 0 < rowCount)
    (hrow : rowCount < 2 ^ 32) (htotal : 0 < totalRowsOf limit maxRows) :
    0 < rowCountOf limit rowCount maxRows := by
  unfold rowCountOf
  split
  · next h =>
    rw [Nat.mod_eq_of_lt (by omega)]
    exact htotal
  · exact hcount

end Scroller

/-- The windows that a scroller asks for tile the rows of its query, and together they cover
the limit, if there is one. -/
theorem scrollerWindows_tile (limit : LimitClause) (rowCount maxRows m : ℕ)
    (hpos : 0 < rowCount) (hrow : rowCount < 2 ^ 32) (hmax : maxRows < 2 ^ 64)
    (hfits : (Scroller.create limit rowCount maxRows).Fits m) :
    Windows.Tiles limit.offset (Scroller.totalRowsOf limit maxRows)
        (Scroller.create limit rowCount maxRows).requests m ∧
      (0 < Scroller.totalRowsOf limit maxRows →
        Scroller.totalRowsOf limit maxRows ≤ m * Scroller.rowCountOf limit rowCount maxRows →
          Windows.covered (Scroller.create limit rowCount maxRows).requests m =
            Scroller.totalRowsOf limit maxRows) := by
  have hrequests : ∀ k < m, (Scroller.create limit rowCount maxRows).requests k =
      Windows.window limit.offset (Scroller.totalRowsOf limit maxRows)
        (Scroller.rowCountOf limit rowCount maxRows) k := fun k hk =>
    Scroller.requests_eq (Scroller.isNew_create limit hrow hmax) hfits hk
  constructor
  · exact (Windows.tiles_window (Scroller.rowCountOf_pos hpos hrow) m).congr hrequests
  · intro htotal hall
    rw [Windows.covered_congr hrequests, Windows.covered_window, if_pos htotal,
      Nat.min_eq_left hall]

/-- A query with the clause `LIMIT`, an offset and five rows. -/
def fiveRows (offset : ℕ) (h : offset < 2 ^ 64) : LimitClause where
  offset := offset
  rowCount := 5
  before := []
  clause := [0x4c]
  behind := []
  offset_lt := h
  rowCount_lt := by decide

/-- Five rows are read in windows of two, two and one rows. -/
theorem scrollerWindows_tile_five :
    Windows.Tiles 10 5 (Scroller.create (fiveRows 10 (by decide)) 2 0).requests 4 ∧
      (0 < 5 → 5 ≤ 4 * 2 →
        Windows.covered (Scroller.create (fiveRows 10 (by decide)) 2 0).requests 4 = 5) :=
  scrollerWindows_tile (fiveRows 10 (by decide)) 2 0 4 (by decide) (by decide) (by decide)
    ⟨by decide, by decide, by decide⟩

/-- A query without the clause `LIMIT`. -/
def noLimit : LimitClause where
  offset := 0
  rowCount := 0
  before := [0x53]
  clause := []
  behind := []
  offset_lt := Nat.pow_pos (by decide)
  rowCount_lt := Nat.pow_pos (by decide)

/-- Behind the last 64-bit offset the windows begin at the front again: without a limit, in
windows of `2 ^ 32 - 1` rows, the window `2 ^ 32 + 2` begins inside of the first one. -/
theorem scrollerWindows_overflow :
    ¬ ∀ (limit : LimitClause) (rowCount maxRows m : ℕ), 0 < rowCount → rowCount < 2 ^ 32 →
      maxRows < 2 ^ 64 → Windows.Tiles limit.offset (Scroller.totalRowsOf limit maxRows)
        (Scroller.create limit rowCount maxRows).requests m := by
  intro hall
  have htiles := hall noLimit (2 ^ 32 - 1) 0 (2 ^ 32 + 3) (by decide) (by decide) (by decide)
  have hrequests := Scroller.requests_of_unlimited
    (s := Scroller.create noLimit (2 ^ 32 - 1) 0) rfl (by decide)
  have hdisjoint := htiles.disjoint 0 (2 ^ 32 + 2) (by decide) (by decide) _ _ _ _
    (hrequests 0) (hrequests (2 ^ 32 + 2))
  exact absurd hdisjoint (by decide)

namespace Scroller

/-- The scroller after some moves. -/
def moves (s : Scroller) : ℕ → Scroller
  | 0 => s
  | n + 1 => s.moveWindow.moves n

/-- The loop that moves the scroller while the row is behind its window, of at most so many
rounds. -/
def moveWhile (curRow : ℤ) : ℕ → Scroller → Option Scroller
  | 0, _ => none
  | fuel + 1, s =>
    if toLong s.moveWindow.nextOffset < curRow then moveWhile curRow fuel s.moveWindow
    else some s.moveWindow

/-- The loop comes to its end, and every move of it makes the next offset larger. -/
def EndsIncreasing (s : Scroller) (curRow : ℤ) : Prop :=
  ∃ n, moveWhile curRow n s = some (s.moves n) ∧
    ∀ k < n, (s.moves k).nextOffset < (s.moves (k + 1)).nextOffset

/-- How many moves it takes to the row. -/
def movesNeeded (s : Scroller) (curRow : ℕ) : ℕ :=
  max 1 ((curRow - s.nextOffset + s.rowCount - 1) / s.rowCount)

theorem moves_succ (s : Scroller) (n : ℕ) : s.moves (n + 1) = (s.moves n).moveWindow := by
  induction n generalizing s with
  | zero => rfl
  | succ n ih => exact ih s.moveWindow

@[simp] theorem moves_rowCount (s : Scroller) (n : ℕ) : (s.moves n).rowCount = s.rowCount := by
  induction n with
  | zero => rfl
  | succ n ih => rw [moves_succ, moveWindow_rowCount, ih]

/-- Moves that do not overflow. -/
theorem moves_nextOffset {s : Scroller} {n : ℕ}
    (h : s.nextOffset + n * s.rowCount < 2 ^ 64) :
    (s.moves n).nextOffset = s.nextOffset + n * s.rowCount := by
  induction n with
  | zero => simp [moves]
  | succ n ih =>
    have hstep : (n + 1) * s.rowCount = n * s.rowCount + s.rowCount := Nat.succ_mul n s.rowCount
    rw [moves_succ, moveWindow_nextOffset, moves_rowCount, ih (by omega),
      Nat.mod_eq_of_lt (by omega)]
    omega

/-- The loop stops at the first move that reaches the row. -/
theorem moveWhile_eq {s : Scroller} {curRow : ℤ} {n : ℕ} (hpos : 0 < n)
    (hbefore : ∀ k, 0 < k → k < n → toLong (s.moves k).nextOffset < curRow)
    (hreached : ¬ toLong (s.moves n).nextOffset < curRow) :
    moveWhile curRow n s = some (s.moves n) := by
  induction n generalizing s with
  | zero => exact absurd hpos (lt_irrefl 0)
  | succ n ih =>
    cases n with
    | zero => exact if_neg hreached
    | succ n =>
      have hfirst : toLong s.moveWindow.nextOffset < curRow := hbefore 1 (by omega) (by omega)
      rw [moveWhile, if_pos hfirst]
      apply ih (by omega)
      · intro k hk hkn
        exact hbefore (k + 1) (by omega) (by omega)
      · exact hreached

/-- Where the loop stops the row is reached. -/
theorem moveWhile_eq_some {s s' : Scroller} {curRow : ℤ} {fuel : ℕ}
    (h : moveWhile curRow fuel s = some s') :
    ∃ n, 0 < n ∧ n ≤ fuel ∧ s' = s.moves n ∧ ¬ toLong (s.moves n).nextOffset < curRow := by
  induction fuel generalizing s with
  | zero => cases h
  | succ fuel ih =>
    rw [moveWhile] at h
    split at h
    · obtain ⟨n, hpos, hle, heq, hreached⟩ := ih h
      exact ⟨n + 1, by omega, by omega, heq, hreached⟩
    · next hreached =>
      cases h
      exact ⟨1, by omega, by omega, rfl, hreached⟩

/-- Where every move makes the next offset larger, none overflows. -/
theorem nextOffset_of_increasing {s : Scroller} {n : ℕ} (hrange : s.InRange)
    (h : ∀ k < n, (s.moves k).nextOffset < (s.moves (k + 1)).nextOffset) :
    s.nextOffset + n * s.rowCount < 2 ^ 64 := by
  induction n with
  | zero => simpa using hrange.nextOffset_lt
  | succ n ih =>
    have hlt := ih fun k hk => h k (by omega)
    have hstep : (n + 1) * s.rowCount = n * s.rowCount + s.rowCount := Nat.succ_mul n s.rowCount
    have hlast := h n (by omega)
    have hrow := hrange.rowCount_lt
    rw [moves_succ, moveWindow_nextOffset, moves_rowCount, moves_nextOffset hlt] at hlast
    by_contra hover
    rw [Nat.mod_eq_sub_mod (by omega), Nat.mod_eq_of_lt (by omega)] at hlast
    omega

/-- The moves that are needed reach the row, and fewer moves do not. -/
theorem movesNeeded_spec (s : Scroller) (curRow : ℕ) (hpos : 0 < s.rowCount) :
    curRow ≤ s.nextOffset + s.movesNeeded curRow * s.rowCount ∧ ∀ n, 0 < n →
      n < s.movesNeeded curRow → s.nextOffset + n * s.rowCount < curRow := by
  have hdiv := Nat.div_add_mod (curRow - s.nextOffset + s.rowCount - 1) s.rowCount
  have hmod := Nat.mod_lt (curRow - s.nextOffset + s.rowCount - 1) hpos
  unfold movesNeeded
  constructor
  · have hle : (curRow - s.nextOffset + s.rowCount - 1) / s.rowCount * s.rowCount ≤
        max 1 ((curRow - s.nextOffset + s.rowCount - 1) / s.rowCount) * s.rowCount :=
      Nat.mul_le_mul_right _ (le_max_right _ _)
    rw [Nat.mul_comm] at hdiv
    omega
  · intro n hn hlt
    have hlt' : n + 1 ≤ (curRow - s.nextOffset + s.rowCount - 1) / s.rowCount := by omega
    have hle := Nat.mul_le_mul_right s.rowCount hlt'
    rw [Nat.succ_mul] at hle
    rw [Nat.mul_comm] at hdiv
    omega

/-- The loop comes to its end by moves that make the next offset larger exactly if the
windows are not empty and the first window that reaches the row ends below `2 ^ 63`. -/
theorem endsIncreasing_iff {s : Scroller} {curRow : ℕ} (hrange : s.InRange)
    (hcur : curRow < 2 ^ 63) :
    s.EndsIncreasing curRow ↔
      0 < s.rowCount ∧ s.nextOffset + s.movesNeeded curRow * s.rowCount < 2 ^ 63 := by
  constructor
  · rintro ⟨n, hloop, hincreasing⟩
    have hlt := nextOffset_of_increasing hrange hincreasing
    obtain ⟨j, hj, hjn, -, hreached⟩ := moveWhile_eq_some hloop
    have hpos : 0 < s.rowCount := by
      have hfirst := hincreasing 0 (by omega)
      by_contra hzero
      have hnone : s.rowCount = 0 := by omega
      have hnext := hrange.nextOffset_lt
      rw [moves_succ, moveWindow_nextOffset] at hfirst
      change s.nextOffset < (s.nextOffset + s.rowCount) % 2 ^ 64 at hfirst
      rw [hnone, Nat.add_zero, Nat.mod_eq_of_lt hnext] at hfirst
      exact lt_irrefl _ hfirst
    have hle : j * s.rowCount ≤ n * s.rowCount := Nat.mul_le_mul_right _ hjn
    rw [moves_nextOffset (by omega)] at hreached
    have hsmall : s.nextOffset + j * s.rowCount < 2 ^ 63 ∧
        curRow ≤ s.nextOffset + j * s.rowCount := by
      unfold toLong at hreached
      split at hreached <;> omega
    have hneeded : s.movesNeeded curRow ≤ j := by
      by_contra hfewer
      have := (movesNeeded_spec s curRow hpos).2 j hj (by omega)
      omega
    have hle' := Nat.mul_le_mul_right s.rowCount hneeded
    exact ⟨hpos, by omega⟩
  · rintro ⟨hpos, hsmall⟩
    obtain ⟨hreach, hfewer⟩ := movesNeeded_spec s curRow hpos
    have hsome : 0 < s.movesNeeded curRow := by
      unfold movesNeeded
      omega
    have hvalue : ∀ k ≤ s.movesNeeded curRow,
        (s.moves k).nextOffset = s.nextOffset + k * s.rowCount ∧
          s.nextOffset + k * s.rowCount < 2 ^ 63 := by
      intro k hk
      have hle := Nat.mul_le_mul_right s.rowCount hk
      exact ⟨moves_nextOffset (by omega), by omega⟩
    refine ⟨s.movesNeeded curRow, moveWhile_eq hsome ?_ ?_, ?_⟩
    · intro k hk hkn
      obtain ⟨hnext, hlt⟩ := hvalue k hkn.le
      have := hfewer k hk hkn
      rw [hnext, toLong, if_pos hlt]
      omega
    · obtain ⟨hnext, hlt⟩ := hvalue _ le_rfl
      rw [hnext, toLong, if_pos hlt]
      omega
    · intro k hk
      have hstep : (k + 1) * s.rowCount = k * s.rowCount + s.rowCount := Nat.succ_mul k s.rowCount
      rw [(hvalue k hk.le).1, (hvalue (k + 1) hk).1]
      omega

/-- Empty windows never reach a row behind them. -/
theorem moveWhile_of_empty {s : Scroller} {curRow : ℤ} (hrange : s.InRange)
    (hempty : s.rowCount = 0) (hbehind : toLong s.nextOffset < curRow) (fuel : ℕ) :
    moveWhile curRow fuel s = none := by
  induction fuel generalizing s with
  | zero => rfl
  | succ fuel ih =>
    have hnext : s.moveWindow.nextOffset = s.nextOffset := by
      rw [moveWindow_nextOffset, hempty, Nat.add_zero, Nat.mod_eq_of_lt hrange.nextOffset_lt]
    rw [moveWhile, hnext, if_pos hbehind]
    exact ih hrange.moveWindow hempty (by rw [hnext]; exact hbehind)

/-- What a call does to the numbers. -/
def call (s : Scroller) : ScrollerCall → Scroller
  | .move => s.moveWindow
  | .prefetch => s.trimWindow.getD s

/-- Calls keep the size of the windows. -/
theorem call_keeps {s : Scroller} (hrange : s.InRange) (c : ScrollerCall) :
    (s.call c).InRange ∧ (s.call c).rowCount = s.rowCount := by
  cases c with
  | move => exact ⟨hrange.moveWindow, rfl⟩
  | prefetch =>
    unfold call
    cases htrim : s.trimWindow with
    | none => exact ⟨hrange, rfl⟩
    | some s' =>
      refine ⟨hrange.trimWindow htrim, ?_⟩
      obtain ⟨rfl, -⟩ | ⟨-, -, rfl⟩ := trimWindow_eq_some htrim
      · rfl
      · rfl

theorem calls_keep {s : Scroller} (hrange : s.InRange) (calls : List ScrollerCall) :
    (calls.foldl call s).InRange ∧ (calls.foldl call s).rowCount = s.rowCount := by
  induction calls generalizing s with
  | nil => exact ⟨hrange, rfl⟩
  | cons c calls ih =>
    obtain ⟨hrange', hrow⟩ := call_keeps hrange c
    obtain ⟨hrange'', hrow'⟩ := ih hrange'
    exact ⟨hrange'', hrow'.trans hrow⟩

/-- The windows of a query are empty only if the size they start with is zero, or the
number in its `LIMIT` clause. -/
theorem rowCountOf_pos_iff {limit : LimitClause} {rowCount maxRows : ℕ}
    (hrow : rowCount < 2 ^ 32) :
    0 < rowCountOf limit rowCount maxRows ↔
      0 < rowCount ∧ (limit.clause = [] ∨ 0 < limit.rowCount) := by
  unfold rowCountOf totalRowsOf
  by_cases hclause : limit.clause = []
  · simp [hclause]
  · by_cases hmax : 0 < maxRows
    · simp only [hclause, hmax, ne_eq, not_false_eq_true, if_true, and_true, false_or]
      split
      · rw [Nat.mod_eq_of_lt (by omega)]
        omega
      · omega
    · simp only [hclause, hmax, ne_eq, not_false_eq_true, if_true, if_false, and_true, false_or]
      split
      · rw [Nat.mod_eq_of_lt (by omega)]
        omega
      · omega

end Scroller

/-- The window size is a 32-bit number. -/
theorem calcPrefetchNumber_lt {selected : ℕ} (appFetchs maxRows : ℕ) (h : selected < 2 ^ 32) :
    calcPrefetchNumber selected appFetchs maxRows < 2 ^ 32 := by
  have hlast : ∀ result, result < 2 ^ 32 →
      (if 0 < maxRows ∧ maxRows < result then maxRows else result) < 2 ^ 32 := by
    intro result hresult
    split <;> omega
  unfold calcPrefetchNumber
  split
  · exact Nat.pow_pos (by decide)
  · apply hlast
    split
    · exact Nat.mod_lt _ (Nat.pow_pos (by decide))
    · split
      · exact Nat.mod_lt _ (Nat.pow_pos (by decide))
      · exact h

/-- The scroller of a statement: its query, the settings of the statement, and the calls
since it was created. -/
def statementScroller (limit : LimitClause) (prefetch arraySize maxRows : ℕ)
    (calls : List ScrollerCall) : Scroller :=
  calls.foldl Scroller.call
    (Scroller.create limit (calcPrefetchNumber prefetch arraySize maxRows) maxRows)

/-- The scroller of a statement is moved to a row by moves that make the next offset larger
exactly if its windows are not empty and the row is not near the end of the numbers. -/
theorem statementScroller_ends_iff (limit : LimitClause) (prefetch arraySize maxRows : ℕ)
    (calls : List ScrollerCall) (curRow : ℕ) (hprefetch : prefetch < 2 ^ 32)
    (hmax : maxRows < 2 ^ 64) (hcur : curRow < 2 ^ 63) :
    (statementScroller limit prefetch arraySize maxRows calls).EndsIncreasing curRow ↔
      (0 < calcPrefetchNumber prefetch arraySize maxRows ∧
        (limit.clause = [] ∨ 0 < limit.rowCount)) ∧
      (statementScroller limit prefetch arraySize maxRows calls).nextOffset +
        (statementScroller limit prefetch arraySize maxRows calls).movesNeeded curRow *
          (statementScroller limit prefetch arraySize maxRows calls).rowCount < 2 ^ 63 := by
  have hsize := calcPrefetchNumber_lt arraySize maxRows hprefetch
  obtain ⟨hrange, hrow⟩ := Scroller.calls_keep (Scroller.inRange_create limit hsize hmax) calls
  have hiff := Scroller.endsIncreasing_iff hrange hcur
  rw [show calls.foldl Scroller.call _ =
    statementScroller limit prefetch arraySize maxRows calls from rfl] at hrow hiff
  rw [hiff, ← Scroller.rowCountOf_pos_iff hsize, hrow]
  rfl

/-- Five rows behind row 10 in windows of two: row 14 is behind the first window. -/
theorem statementScroller_ends_five :
    (statementScroller (fiveRows 10 (by decide)) 2 1 0 [.move]).EndsIncreasing (14 : ℕ) :=
  (statementScroller_ends_iff (fiveRows 10 (by decide)) 2 1 0 [.move] 14 (by decide) (by decide)
    (by decide)).mpr ⟨by decide, by decide⟩

/-- `SELECT a FROM t LIMIT 0`. -/
def limitZero : LimitClause where
  offset := 0
  rowCount := 0
  before := [0x53, 0x45, 0x4c, 0x45, 0x43, 0x54, 0x20, 0x61, 0x20, 0x46, 0x52, 0x4f, 0x4d, 0x20,
    0x74, 0x20]
  clause := [0x4c, 0x49, 0x4d, 0x49, 0x54, 0x20, 0x30]
  behind := []
  offset_lt := Nat.two_pow_pos 64
  rowCount_lt := Nat.two_pow_pos 32

/-- With `LIMIT 0` the loop does not end. -/
theorem moveWhile_limitZero (fuel : ℕ) :
    Scroller.moveWhile 4 fuel (statementScroller limitZero 10 1 0 [.move]) = none := by
  apply Scroller.moveWhile_of_empty
  · exact (Scroller.calls_keep (Scroller.inRange_create limitZero (by decide) (by decide)) _).1
  · decide
  · decide

/-- With `LIMIT 0` the scroller is not moved to the fifth row. -/
theorem limitZero_not_ends :
    ¬ ∀ (limit : LimitClause) (prefetch arraySize maxRows : ℕ) (calls : List ScrollerCall)
      (curRow : ℕ), prefetch < 2 ^ 32 → maxRows < 2 ^ 64 → curRow < 2 ^ 63 →
        (statementScroller limit prefetch arraySize maxRows calls).EndsIncreasing curRow := by
  intro hall
  obtain ⟨n, hloop, -⟩ := hall limitZero 10 1 0 [.move] 4 (by decide) (by decide) (by decide)
  have hnone := moveWhile_limitZero n
  exact absurd (hloop.symm.trans hnone) (Option.some_ne_none _)

end MatrixOdbc.Driver
