import MatrixOdbc.Foundations.BoundedText
import MatrixOdbc.Util.CaseFolding

/-!
# Bounded copies of wide strings

`sqlwcharncpy`, `sqlwcharncat2` and the chain of appends of `Driver::to_kvpair_null`, with every
write checked. A pointer is an offset in the destination, and a size is a `size_t`.
-/

namespace MatrixOdbc.Util

open BoundedText

/-- A write through a pointer; `none` is a write outside the destination. -/
def putUnit (dest : List SQLWCHAR) (pos : ℕ) (c : SQLWCHAR) : Option (List SQLWCHAR) :=
  if pos < dest.length then some (dest.set pos c) else none

/-- The variables of the copying loops: the destination, the pointer into it and the count. -/
structure Copying where
  dest : List SQLWCHAR
  pos : ℕ
  n : ℕ

/-- The loop of `sqlwcharncpy`. The count is decremented by the test that ends the loop, too. -/
def ncpyLoop : List SQLWCHAR → Copying → Option Copying
  | [], s => some s
  | c :: src, s =>
    if c = 0 then some s
    else if s.n = 0 then some { s with n := ulongSize - 1 }
    else (putUnit s.dest s.pos c).bind fun dest => ncpyLoop src ⟨dest, s.pos + 1, s.n - 1⟩

/-- The terminator behind a copy: at the pointer, or in front of it when the count is 0. -/
def terminate (s : Copying) : Option Copying :=
  if s.n ≠ 0 then (putUnit s.dest s.pos 0).map fun dest => { s with dest := dest }
  else (putUnit s.dest (s.pos - 1) 0).map fun dest => { s with dest := dest }

/-- `sqlwcharncpy` at the beginning of a destination: what is left there and the pointer that is
returned; the inner `none` is NULL. -/
def sqlwcharncpy (dest src : Option (List SQLWCHAR)) (n : ℕ) : Option (Option Copying) :=
  match dest, src with
  | some dest, some src => ((ncpyLoop src ⟨dest, 0, n⟩).bind terminate).map some
  | _, _ => some none

/-- The loop of `sqlwcharncat2`. -/
def ncat2Loop : List SQLWCHAR → Copying → Option Copying
  | [], s => some s
  | c :: src, s =>
    if c = 0 ∨ s.n = 0 then some s
    else (putUnit s.dest s.pos c).bind fun dest => ncat2Loop src ⟨dest, s.pos + 1, s.n - 1⟩

/-- `sqlwcharncat2` through a pointer: the number that is returned, and the variables. The length
of the text is taken inside the destination only. -/
def sqlwcharncat2 (dest : List SQLWCHAR) (pos : ℕ) (src : List SQLWCHAR) (n : ℕ) :
    Option (ℕ × Copying) :=
  if n = 0 then some (0, ⟨dest, pos, n⟩)
  else if 0 ∉ dest.drop pos then none
  else
    let origDest := pos + sqlwcharlen (dest.drop pos)
    ((ncat2Loop src ⟨dest, origDest, n⟩).bind terminate).map fun s => (s.pos - origDest, s)

/-- `attrs+= sqlwcharncat2(attrs, src, &attrslen)`. -/
def concatText (src : List SQLWCHAR) (s : Copying) : Option Copying :=
  (sqlwcharncat2 s.dest s.pos src s.n).map fun r => ⟨r.2.dest, s.pos + r.1, r.2.n⟩

/-- `APPEND_SQLWCHAR`. -/
def appendSqlwchar (c : SQLWCHAR) (s : Copying) : Option Copying :=
  if s.n = 0 then some s
  else (putUnit s.dest s.pos c).bind fun dest =>
    if s.n - 1 = 0 then some ⟨dest, s.pos + 1, 0⟩
    else (putUnit dest (s.pos + 1) 0).map fun dest => ⟨dest, s.pos + 1, s.n - 1⟩

/-- What is appended by one of the two. -/
inductive KvPiece where
  | text (src : List SQLWCHAR)
  | unit (c : SQLWCHAR)

/-- The units that a piece stands for. -/
def KvPiece.units : KvPiece → List SQLWCHAR
  | text src => wideText src
  | unit c => [c]

/-- One piece is appended. -/
def KvPiece.append : KvPiece → Copying → Option Copying
  | text src => concatText src
  | unit c => appendSqlwchar c

/-- A sequence of pieces is appended; the calls share the pointer and the count. -/
def appendPieces : List KvPiece → Copying → Option Copying
  | [], s => some s
  | p :: pieces, s => (p.append s).bind (appendPieces pieces)

section Loops

variable {dest front behind src text : List SQLWCHAR} {s : Copying} {c d : SQLWCHAR} {n : ℕ}

theorem putUnit_front (h : n = front.length) :
    putUnit (front ++ d :: behind) n c = some (front ++ c :: behind) := by
  subst h
  rw [putUnit, if_pos (by simp), List.set_append_right _ _ le_rfl, Nat.sub_self,
    List.set_cons_zero]

theorem putUnit_outside (h : dest.length ≤ n) : putUnit dest n c = none := if_neg (by omega)

/-- The loop of `sqlwcharncat2` copies what there is room for. -/
theorem ncat2Loop_eq (src front behind : List SQLWCHAR) :
    ncat2Loop src ⟨front ++ behind, front.length, behind.length⟩ =
      some ⟨front ++ (wideText src).take behind.length ++ behind.drop (wideText src).length,
        front.length + min behind.length (wideText src).length,
        behind.length - (wideText src).length⟩ := by
  induction src generalizing front behind with
  | nil => simp [ncat2Loop]
  | cons c src ih =>
    by_cases hc : c = 0
    · rw [ncat2Loop, if_pos (Or.inl hc), hc, wideText_cons_zero]
      simp
    · rw [wideText_cons hc]
      cases behind with
      | nil => simp [ncat2Loop]
      | cons d behind =>
        have hnot : ¬ (c = 0 ∨ (d :: behind).length = 0) := by simp [hc]
        have hstep := ih (front ++ [c]) behind
        rw [ncat2Loop, if_neg hnot, putUnit_front rfl, Option.bind_some]
        simp only [List.append_assoc, List.singleton_append, List.length_append, List.length_cons,
          List.length_nil, Nat.zero_add] at hstep ⊢
        rw [Nat.add_sub_cancel, hstep]
        simp only [List.take_succ_cons, List.drop_succ_cons, List.cons_append, Option.some.injEq,
          Copying.mk.injEq, true_and]
        omega

/-- The loop of `sqlwcharncpy` does so, too, but the count is not 0 when the source goes on. -/
theorem ncpyLoop_eq (src front behind : List SQLWCHAR) :
    ncpyLoop src ⟨front ++ behind, front.length, behind.length⟩ =
      some ⟨front ++ (wideText src).take behind.length ++ behind.drop (wideText src).length,
        front.length + min behind.length (wideText src).length,
        if (wideText src).length ≤ behind.length then behind.length - (wideText src).length
        else ulongSize - 1⟩ := by
  induction src generalizing front behind with
  | nil => simp [ncpyLoop]
  | cons c src ih =>
    by_cases hc : c = 0
    · rw [ncpyLoop, if_pos hc, hc, wideText_cons_zero]
      simp
    · rw [wideText_cons hc]
      cases behind with
      | nil => simp [ncpyLoop, hc]
      | cons d behind =>
        have hstep := ih (front ++ [c]) behind
        rw [ncpyLoop, if_neg hc, if_neg (by simp), putUnit_front rfl, Option.bind_some]
        simp only [List.append_assoc, List.singleton_append, List.length_append, List.length_cons,
          List.length_nil, Nat.zero_add] at hstep ⊢
        rw [Nat.add_sub_cancel, hstep]
        simp only [List.take_succ_cons, List.drop_succ_cons, List.cons_append, Option.some.injEq,
          Copying.mk.injEq, true_and, Nat.add_le_add_iff_right, Nat.add_sub_add_right, and_true]
        omega

/-- The terminator at a place behind the copy. -/
theorem terminate_room (hn : n ≠ 0) :
    terminate ⟨text ++ d :: behind, text.length, n⟩ =
      some ⟨text ++ 0 :: behind, text.length, n⟩ := by
  rw [terminate, if_pos hn, putUnit_front rfl, Option.map_some]

/-- The terminator at the last place. -/
theorem terminate_full (hne : dest ≠ []) : terminate ⟨dest, dest.length, 0⟩ =
    some ⟨dest.take (dest.length - 1) ++ [0], dest.length, 0⟩ := by
  have hpos := List.length_pos_iff.mpr hne
  have hsplit : dest.take (dest.length - 1) ++ [dest.getLast hne] = dest := by
    rw [← List.dropLast_eq_take, List.dropLast_append_getLast]
  have hfront : dest.length - 1 = (dest.take (dest.length - 1)).length := by
    rw [List.length_take]
    omega
  have hput := @putUnit_front (dest.take (dest.length - 1)) [] 0 (dest.getLast hne) _ hfront
  rw [hsplit] at hput
  rw [terminate, if_neg (by simp)]
  simp only [hput, Option.map_some]

end Loops

section Copies

variable {dest old src text : List SQLWCHAR} {pos n : ℕ}

/-- What the loops leave when the source is not longer than the room. -/
theorem copied_of_le {behind : List SQLWCHAR} (h : text.length ≤ behind.length) :
    text.take behind.length = text ∧ min behind.length text.length = text.length :=
  ⟨List.take_of_length_le h, Nat.min_eq_right h⟩

/-- `sqlwcharncpy` does what it is for exactly if the source is not longer than the destination.
For a longer one the count has wrapped around, and the terminator goes behind the destination. -/
theorem sqlwcharncpy_holds_iff (hne : 0 < dest.length) :
    (∃ s, sqlwcharncpy (some dest) (some src) dest.length = some (some s) ∧
      s.dest.length = dest.length ∧ Holds 0 s.dest (wideText src)) ↔
        (wideText src).length ≤ dest.length := by
  have hloop := ncpyLoop_eq src [] dest
  rw [List.nil_append, List.nil_append, List.length_nil, Nat.zero_add] at hloop
  rw [sqlwcharncpy, hloop, Option.bind_some]
  obtain hlt | heq | hgt := lt_trichotomy (wideText src).length dest.length
  · obtain ⟨htake, hmin⟩ := copied_of_le hlt.le
    obtain ⟨d, behind, hbehind⟩ := List.exists_cons_of_ne_nil
      (List.ne_nil_of_length_pos (by rw [List.length_drop]; omega) :
        dest.drop (wideText src).length ≠ [])
    have hlength := congrArg List.length hbehind
    rw [List.length_drop, List.length_cons] at hlength
    rw [htake, hmin, if_pos hlt.le, hbehind, terminate_room (by omega), Option.map_some]
    refine iff_of_true ⟨_, rfl, ?_, ?_⟩ hlt.le
    · simp only [List.length_append, List.length_cons]
      omega
    · refine @Open.holds _ 0 _ _ (dest.length - (wideText src).length) ⟨⟨behind, rfl⟩, ?_⟩
      simp only [List.length_append, List.length_cons]
      omega
  · obtain ⟨htake, hmin⟩ := copied_of_le heq.le
    have hdrop : dest.drop (wideText src).length = [] := List.drop_eq_nil_of_le heq.ge
    have htext : wideText src ≠ [] := List.ne_nil_of_length_pos (by omega)
    rw [htake, hmin, if_pos heq.le, hdrop, List.append_nil, ← heq, Nat.sub_self,
      terminate_full htext, Option.map_some]
    have hlength : ((wideText src).take ((wideText src).length - 1) ++ [(0 : SQLWCHAR)]).length =
        (wideText src).length := by
      rw [List.length_append, List.length_take, List.length_singleton]
      omega
    refine iff_of_true ⟨_, rfl, hlength, ?_⟩ le_rfl
    refine (@Closed.holds_iff _ 0 0 _ _ ⟨?_, hlength.le⟩).mpr rfl
    rw [hlength]
  · have hmin : min dest.length (wideText src).length = dest.length := Nat.min_eq_left hgt.le
    have hdrop : dest.drop (wideText src).length = [] := List.drop_eq_nil_of_le hgt.le
    have hwrapped : ulongSize - 1 ≠ 0 := by decide
    rw [hmin, if_neg (by omega), hdrop, List.append_nil, terminate, if_pos hwrapped,
      putUnit_outside (by rw [List.length_take, hmin]), Option.map_none, Option.map_none]
    exact iff_of_false (by simp) (by omega)

/-- The length of a text that is followed by a terminator. -/
theorem sqlwcharlen_append {behind : List SQLWCHAR} (h : 0 ∉ old) :
    sqlwcharlen (old ++ 0 :: behind) = old.length := by
  induction old with
  | nil => rfl
  | cons c old ih =>
    obtain ⟨hc, hold⟩ := not_or.mp (List.mem_cons.not.mp h)
    rw [List.cons_append, sqlwcharlen, if_neg (Ne.symm hc), ih hold, List.length_cons]

/-- `sqlwcharncat2` behind a text with so much room: either the source fits with a terminator, or
the room is used up and the terminator is at the last place. -/
theorem sqlwcharncat2_spec (hopen : Open 0 dest old n) (hpos : pos ≤ old.length)
    (hnul : 0 ∉ old.drop pos) :
    ∃ count s, sqlwcharncat2 dest pos src n = some (count, s) ∧ s.dest.length = dest.length ∧
      (count = (wideText src).length ∧ s.n = n - count ∧ Open 0 s.dest (old ++ wideText src) s.n ∨
        s.n = 0 ∧ Closed 0 s.dest (old ++ wideText src)) := by
  have hroom := hopen.room_pos
  obtain ⟨⟨junk, hdest⟩, hlength⟩ := hopen
  have hn : n = junk.length + 1 := by
    have hsize := congrArg List.length hdest
    rw [List.length_append, List.length_cons] at hsize
    omega
  have hdrop : dest.drop pos = old.drop pos ++ 0 :: junk := by
    rw [hdest, List.drop_append_of_le_length hpos]
  have horig : pos + sqlwcharlen (dest.drop pos) = old.length := by
    rw [hdrop, sqlwcharlen_append hnul, List.length_drop]
    omega
  have hloop := ncat2Loop_eq src old (0 :: junk)
  rw [← hdest, List.length_cons, ← hn] at hloop
  rw [sqlwcharncat2, if_neg (by omega), if_neg (by rw [hdrop]; simp), horig]
  dsimp only
  rw [hloop, Option.bind_some]
  by_cases hfits : (wideText src).length < n
  · obtain ⟨d, behind, hbehind⟩ := List.exists_cons_of_ne_nil
      (List.ne_nil_of_length_pos (by rw [List.length_drop, List.length_cons]; omega) :
        (0 :: junk).drop (wideText src).length ≠ [])
    have hrest := congrArg List.length hbehind
    rw [List.length_drop, List.length_cons, List.length_cons, ← hn] at hrest
    have htext : old.length + (wideText src).length = (old ++ wideText src).length := by simp
    have hcount : (old ++ wideText src).length - old.length = (wideText src).length := by
      rw [← htext]
      exact Nat.add_sub_cancel_left _ _
    have hsize : (old ++ wideText src ++ 0 :: behind).length = dest.length := by
      simp only [List.length_append, List.length_cons]
      omega
    rw [List.take_of_length_le hfits.le, Nat.min_eq_right hfits.le, hbehind, htext,
      terminate_room (by omega), Option.map_some]
    refine ⟨_, _, rfl, hsize, Or.inl ⟨?_, ?_, ⟨behind, rfl⟩, ?_⟩⟩
    · exact hcount
    · exact congrArg (n - ·) hcount.symm
    · rw [hsize, ← htext]
      dsimp only
      omega
  · have hcopied : (old ++ (wideText src).take n).length = dest.length := by
      rw [List.length_append, List.length_take]
      omega
    have hrest : (0 :: junk).drop (wideText src).length = [] :=
      List.drop_eq_nil_of_le (by rw [List.length_cons]; omega)
    have hend : old.length + n = (old ++ (wideText src).take n).length := by
      rw [hcopied]
      exact hlength
    have hfull : old ++ (wideText src).take n ≠ [] := List.ne_nil_of_length_pos (by omega)
    have hfront : (old ++ (wideText src).take n).take (dest.length - 1) =
        (old ++ wideText src).take (dest.length - 1) := by
      rw [← hlength, List.take_append, List.take_append, List.take_take]
      congr 2
      omega
    rw [Nat.min_eq_left (by omega), hrest, List.append_nil, Nat.sub_eq_zero_of_le (by omega), hend,
      terminate_full hfull, Option.map_some, hcopied, hfront]
    have hsize : ((old ++ wideText src).take (dest.length - 1) ++ [(0 : SQLWCHAR)]).length =
        dest.length := by
      rw [← hfront, List.length_append, List.length_take, hcopied, List.length_singleton]
      omega
    refine ⟨_, _, rfl, hsize, Or.inr ⟨rfl, ?_, ?_⟩⟩
    · rw [hsize]
    · rw [hsize, List.length_append]
      omega

end Copies

section Chains

variable {s s' : Copying} {text : List SQLWCHAR} {pieces : List KvPiece} {p : KvPiece}

/-- A unit other than the terminator is appended where the destination has one place left. -/
def KvPiece.TakesLastPlace (size : ℕ) (text : List SQLWCHAR) (p : KvPiece) : Prop :=
  ∃ c, p = .unit c ∧ c ≠ 0 ∧ text.length + 1 = size

/-- So it is with one of the pieces. -/
def LastPlaceTaken (size : ℕ) (text : List SQLWCHAR) (pieces : List KvPiece) : Prop :=
  ∃ front p behind, pieces = front ++ p :: behind ∧
    p.TakesLastPlace size (text ++ front.flatMap KvPiece.units)

/-- The text stands in the destination, and the pointer is behind it. -/
def Appending (s : Copying) (text : List SQLWCHAR) : Prop :=
  Open 0 s.dest text s.n ∧ s.pos = text.length

/-- One piece: the text is longer, or the destination is used up, with a terminator unless a unit
took its place. -/
theorem KvPiece.append_spec (h : Appending s text) :
    ∃ s', p.append s = some s' ∧ s'.dest.length = s.dest.length ∧
      (Appending s' (text ++ p.units) ∨
        s'.n = 0 ∧ ∃ last, Closed last s'.dest (text ++ p.units) ∧
          (last ≠ 0 ↔ p.TakesLastPlace s.dest.length text)) := by
  obtain ⟨hopen, hpos⟩ := h
  have hroom := hopen.room_pos
  cases p with
  | text src =>
    have hnul : 0 ∉ text.drop s.pos := by
      rw [hpos, List.drop_length]
      exact List.not_mem_nil
    obtain ⟨count, s', hcat, hlength, hend⟩ :=
      @sqlwcharncat2_spec s.dest text src s.pos s.n hopen hpos.le hnul
    refine ⟨⟨s'.dest, s.pos + count, s'.n⟩, ?_, hlength, ?_⟩
    · rw [append, concatText, hcat, Option.map_some]
    · obtain ⟨hcount, -, hopen'⟩ | ⟨hfull, hclosed⟩ := hend
      · refine Or.inl ⟨hopen', ?_⟩
        rw [hpos, hcount, List.length_append]
        rfl
      · refine Or.inr ⟨hfull, 0, hclosed, iff_of_false (by simp) ?_⟩
        rintro ⟨c, hc, -⟩
        cases hc
  | unit c =>
    obtain ⟨⟨junk, hdest⟩, hsize⟩ := hopen
    have hjunk := congrArg List.length hdest
    rw [List.length_append, List.length_cons] at hjunk
    have hfirst : putUnit s.dest s.pos c = some (text ++ c :: junk) := by
      rw [hdest, putUnit_front hpos]
    rw [append, appendSqlwchar, if_neg (by omega), hfirst, Option.bind_some]
    by_cases hone : s.n - 1 = 0
    · have hempty : junk = [] := List.length_eq_zero_iff.mp (by omega)
      subst hempty
      rw [if_pos hone]
      refine ⟨_, rfl, ?_, Or.inr ⟨rfl, c, ⟨?_, ?_⟩, ?_⟩⟩
      · simp only [List.length_append, List.length_cons] at hjunk ⊢
        omega
      · simp [units]
      · simp [units]
      · have hlast : text.length + 1 = s.dest.length := by simpa using hjunk.symm
        constructor
        · exact fun hc => ⟨c, rfl, hc, hlast⟩
        · rintro ⟨c', hc', hne, -⟩
          obtain rfl := KvPiece.unit.inj hc'
          exact hne
    · obtain ⟨d, junk, rfl⟩ := List.exists_cons_of_ne_nil
        (List.ne_nil_of_length_pos (by omega) : junk ≠ [])
      have hsecond : putUnit (text ++ c :: d :: junk) (s.pos + 1) 0 =
          some (text ++ [c] ++ 0 :: junk) := by
        have hfront : s.pos + 1 = (text ++ [c]).length := by simp [hpos]
        have hput := @putUnit_front (text ++ [c]) junk 0 d _ hfront
        simpa using hput
      rw [if_neg hone, hsecond, Option.map_some]
      refine ⟨_, rfl, ?_, Or.inl ⟨⟨⟨junk, rfl⟩, ?_⟩, ?_⟩⟩
      · simp only [List.length_append, List.length_cons, List.length_nil] at hjunk ⊢
        omega
      · simp only [units, List.length_append, List.length_cons, List.length_nil] at hjunk ⊢
        omega
      · simp [units, hpos]

theorem lastPlaceTaken_cons_iff {size : ℕ} : LastPlaceTaken size text (p :: pieces) ↔
    p.TakesLastPlace size text ∨ LastPlaceTaken size (text ++ p.units) pieces := by
  constructor
  · rintro ⟨front, q, behind, hsplit, htaken⟩
    cases front with
    | nil =>
      obtain ⟨rfl, rfl⟩ := List.cons.inj hsplit
      left
      simpa using htaken
    | cons q' front =>
      obtain ⟨rfl, rfl⟩ := List.cons.inj hsplit
      refine Or.inr ⟨front, q, behind, rfl, ?_⟩
      simpa using htaken
  · rintro (htaken | ⟨front, q, behind, rfl, htaken⟩)
    · exact ⟨[], p, pieces, rfl, by simpa using htaken⟩
    · exact ⟨p :: front, q, behind, rfl, by simpa using htaken⟩

/-- There is no last place left in front of a text that fills the destination. -/
theorem not_lastPlaceTaken {size : ℕ} (h : size ≤ text.length) :
    ¬ LastPlaceTaken size text pieces := by
  rintro ⟨front, q, behind, -, c, -, -, hlength⟩
  rw [List.length_append] at hlength
  omega

/-- When the destination is used up, nothing changes. -/
theorem appendPieces_full (h : s.n = 0) : appendPieces pieces s = some s := by
  obtain ⟨dest, pos, n⟩ := s
  subst h
  induction pieces with
  | nil => rfl
  | cons p pieces ih =>
    have hstep : p.append ⟨dest, pos, 0⟩ = some ⟨dest, pos, 0⟩ := by
      cases p with
      | text src => rfl
      | unit c => rfl
    rw [appendPieces, hstep, Option.bind_some, ih]

/-- A chain of appends: the text is longer by all pieces, or the destination is used up, with a
terminator unless a unit took its place. -/
theorem appendPieces_spec (h : Appending s text) :
    ∃ s', appendPieces pieces s = some s' ∧ s'.dest.length = s.dest.length ∧
      (Appending s' (text ++ pieces.flatMap KvPiece.units) ∧
          ¬ LastPlaceTaken s.dest.length text pieces ∨
        s'.n = 0 ∧ ∃ last, Closed last s'.dest (text ++ pieces.flatMap KvPiece.units) ∧
          (last ≠ 0 ↔ LastPlaceTaken s.dest.length text pieces)) := by
  induction pieces generalizing s text with
  | nil =>
    refine ⟨s, rfl, rfl, Or.inl ⟨by simpa using h, ?_⟩⟩
    rintro ⟨front, q, behind, hsplit, -⟩
    simp at hsplit
  | cons p pieces ih =>
    obtain ⟨s₁, hstep, hlength₁, hend⟩ := @KvPiece.append_spec s text p h
    rw [appendPieces, hstep, Option.bind_some, List.flatMap_cons, ← List.append_assoc]
    obtain hopen | ⟨hfull, last, hclosed, hlast⟩ := hend
    · have hnot : ¬ p.TakesLastPlace s.dest.length text := by
        rintro ⟨c, rfl, -, hsize⟩
        have hroom := hopen.1.room_pos
        have htext := hopen.1.2
        rw [hlength₁, KvPiece.units, List.length_append, List.length_singleton] at htext
        omega
      obtain ⟨s', hrun, hlength', hend'⟩ := ih hopen
      refine ⟨s', hrun, hlength'.trans hlength₁, ?_⟩
      rw [lastPlaceTaken_cons_iff, or_iff_right hnot, ← hlength₁]
      exact hend'
    · refine ⟨s₁, appendPieces_full hfull, hlength₁, Or.inr ⟨hfull, last, hclosed.append _, ?_⟩⟩
      have hsize := hclosed.2
      rw [hlength₁] at hsize
      rw [hlast, lastPlaceTaken_cons_iff, or_iff_left (not_lastPlaceTaken hsize)]

/-- A chain of appends never writes outside the destination, and it leaves what fits of the text
in front of a terminator exactly if no unit takes the last place. -/
theorem appendPieces_holds_iff (h : Appending s text) :
    (∃ s', appendPieces pieces s = some s' ∧ s'.dest.length = s.dest.length ∧
      Holds 0 s'.dest (text ++ pieces.flatMap KvPiece.units)) ↔
        ¬ LastPlaceTaken s.dest.length text pieces := by
  obtain ⟨s', hrun, hlength, hend⟩ := @appendPieces_spec s text pieces h
  rw [hrun]
  obtain ⟨hopen, hnot⟩ | ⟨-, last, hclosed, hlast⟩ := hend
  · exact iff_of_true ⟨s', rfl, hlength, hopen.1.holds⟩ hnot
  · rw [← hlast, not_not]
    constructor
    · rintro ⟨s'', hs, -, hholds⟩
      obtain rfl := Option.some_inj.mp hs
      exact hclosed.holds_iff.mp hholds
    · exact fun hzero => ⟨s', rfl, hlength, hclosed.holds_iff.mpr hzero⟩

end Chains

/-- `sqlwcharncpy` copies within its destination exactly if the source is not longer than it,
`sqlwcharncat2` always, and a chain of appends that share the count exactly if no unit other than
the terminator takes the last place. -/
theorem boundedCopies_iff (dest src old : List SQLWCHAR) (pos n : ℕ) (s : Copying)
    (pieces : List KvPiece) :
    (0 < dest.length →
      ((∃ s', sqlwcharncpy (some dest) (some src) dest.length = some (some s') ∧
        s'.dest.length = dest.length ∧ Holds 0 s'.dest (wideText src)) ↔
          (wideText src).length ≤ dest.length)) ∧
    (Open 0 dest old n → pos ≤ old.length → 0 ∉ old.drop pos →
      ∃ r, sqlwcharncat2 dest pos src n = some r ∧ r.2.dest.length = dest.length ∧
        Holds 0 r.2.dest (old ++ wideText src)) ∧
    (Appending s old →
      ((∃ s', appendPieces pieces s = some s' ∧ s'.dest.length = s.dest.length ∧
        Holds 0 s'.dest (old ++ pieces.flatMap KvPiece.units)) ↔
          ¬ LastPlaceTaken s.dest.length old pieces)) := by
  refine ⟨sqlwcharncpy_holds_iff, ?_, appendPieces_holds_iff⟩
  intro hopen hpos hnul
  obtain ⟨count, s', hcat, hlength, hend⟩ :=
    @sqlwcharncat2_spec dest old src pos n hopen hpos hnul
  refine ⟨(count, s'), hcat, hlength, ?_⟩
  obtain ⟨-, -, hopen'⟩ | ⟨-, hclosed⟩ := hend
  · exact hopen'.holds
  · exact hclosed.holds_iff.mpr rfl

/-- Two units are copied to three places, and appended behind one unit, where they are cut. The unit
behind them in a chain is a terminator. -/
theorem boundedCopies_three :
    (∃ s', sqlwcharncpy (some [0x41, 0, 0x2a]) (some [0x42, 0x43]) 3 = some (some s') ∧
      s'.dest.length = 3 ∧ Holds 0 s'.dest [0x42, 0x43]) ∧
    (∃ r, sqlwcharncat2 [0x41, 0, 0x2a] 0 [0x42, 0x43] 2 = some r ∧ r.2.dest.length = 3 ∧
      Holds 0 r.2.dest [0x41, 0x42, 0x43]) ∧
    ∃ s', appendPieces [.text [0x42], .unit 0] ⟨[0x41, 0, 0x2a], 1, 2⟩ = some s' ∧
      s'.dest.length = 3 ∧ Holds 0 s'.dest [0x41, 0x42, 0] := by
  have hopen : Open 0 [0x41, 0, (0x2a : SQLWCHAR)] [0x41] 2 := ⟨⟨[0x2a], rfl⟩, rfl⟩
  obtain ⟨hcopy, hcat, hchain⟩ := boundedCopies_iff [0x41, 0, 0x2a] [0x42, 0x43] [0x41] 0 2
    ⟨[0x41, 0, 0x2a], 1, 2⟩ [.text [0x42], .unit 0]
  have hfree : ¬ LastPlaceTaken 3 [0x41] [.text [0x42], .unit 0] := by
    rw [lastPlaceTaken_cons_iff, lastPlaceTaken_cons_iff]
    rintro (⟨c, hc, -⟩ | ⟨c, hc, hne, -⟩ | ⟨front, p, behind, hsplit, -⟩)
    · cases hc
    · exact hne (KvPiece.unit.inj hc).symm
    · simp at hsplit
  exact ⟨(hcopy (by decide)).mpr (by decide), hcat hopen (by decide) (by decide),
    (hchain ⟨hopen, rfl⟩).mpr hfree⟩

/-- The terminator of a copy of three units to two places goes behind the destination, and `=`
takes the place of the terminator. -/
theorem boundedCopies_failures :
    sqlwcharncpy (some [0, 0]) (some [0x41, 0x42, 0x43]) 2 = none ∧
      ∃ s', appendPieces [.unit (wide '=')] ⟨[0], 0, 1⟩ = some s' ∧
        ¬ Holds 0 s'.dest [wide '='] := by
  refine ⟨rfl, ⟨[wide '='], 1, 0⟩, rfl, ?_⟩
  rintro ⟨rest, hrest⟩
  exact absurd (List.cons.inj hrest).1 (by decide)

end MatrixOdbc.Util
