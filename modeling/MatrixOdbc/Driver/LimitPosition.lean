import MatrixOdbc.Driver.LimitScroller
import MatrixOdbc.Driver.TableType
import MatrixOdbc.MysqlStrings.Ctype
import Mathlib.Tactic.IntervalCases

/-!
# Where the limit of a query is

`find_position4limit` of `driver/utility.cc` with what it calls there and in `driver/parse.cc`. The
text of a query is searched from its end for a blank with `LIMIT` behind it, whatever it is a part
of, and the numbers behind are collected in a buffer of thirty bytes. There is no result where a
byte is written behind the buffer or a position before the text is returned.
-/

namespace MatrixOdbc.Driver

open MysqlStrings

/-- `_MY_NMR`: digit. -/
def MY_NMR : ℕ := 0o4

/-- `myodbc_isspace` of a text up to its end. -/
def myodbcIsspace (cs : Ctype) (s : List UInt8) : Bool := (cs.ctype s).1 &&& MY_SPC ≠ 0

/-- `myodbc_isnum` of a text up to its end. -/
def myodbcIsnum (cs : Ctype) (s : List UInt8) : Bool := (cs.ctype s).1 &&& MY_NMR ≠ 0

/-- The character types of a connection, whose ASCII characters are of one type each: the digits
are numbers, and no character that is seen is a blank. -/
structure LimitCtype extends Ctype where
  blankByte : UInt8 → Bool
  isspace_ascii : ∀ c s, c < 0x80 → myodbcIsspace toCtype (c :: s) = blankByte c
  isnum_ascii : ∀ c s, c < 0x80 → (myodbcIsnum toCtype (c :: s) = true ↔ Decimal.IsDigit c)
  blankByte_printable : ∀ c, 0x20 < c → c < 0x7f → blankByte c = false

section Tokens

variable (cs : LimitCtype) (query : List UInt8)

/-- The byte at a position; behind the text there is its end. -/
def queryByte (i : ℕ) : UInt8 := query.getD i 0

/-- The byte at a position is no part of a longer character, and it is a blank. -/
def blankAt (pos thru : ℕ) : Bool :=
  queryByte query pos < 0x80 && myodbcIsspace cs.toCtype ((query.take thru).drop pos)

/-- `mystr_get_prev_token` from a position on: the token, and the position that is kept. -/
def mystrGetPrevToken (thru : ℕ) : ℕ → ℕ × ℕ
  | 0 => (0, 0)
  | pos + 1 => if blankAt cs query pos thru then (pos + 1, pos) else mystrGetPrevToken thru pos

/-- `myodbc_casecmp` of the text at a position with a word: whether it returns 0. -/
def casecmpAt (i : ℕ) (word : List UInt8) : Bool :=
  myodbcCasecmp (query.drop i ++ [0]) word word.length = some 0

theorem mystrGetPrevToken_snd_lt {thru pos : ℕ} (h : (mystrGetPrevToken cs query thru pos).1 ≠ 0) :
    (mystrGetPrevToken cs query thru pos).2 < pos := by
  induction pos with
  | zero => exact absurd rfl h
  | succ pos ih =>
    rw [mystrGetPrevToken] at h ⊢
    split_ifs with hblank
    · exact Nat.lt_succ_self pos
    · rw [if_neg hblank] at h
      exact Nat.lt_succ_of_lt (ih h)

/-- `find_token`. The first token is not looked at. -/
def findToken (word : List UInt8) (before : ℕ) : Option ℕ :=
  if _h : (mystrGetPrevToken cs query before before).1 = 0 then none
  else if casecmpAt query (mystrGetPrevToken cs query before before).1 word then
    some (mystrGetPrevToken cs query before before).1
  else findToken word (mystrGetPrevToken cs query before before).2
termination_by before
decreasing_by exact mystrGetPrevToken_snd_lt cs query _h

/-- The loop of `check_row_locking` over the words from the last on. -/
def checkTokens : List (List UInt8) → ℕ → ℕ → Option ℕ
  | [], _, token => some token
  | word :: rest, before, _ =>
    let (token, before) := mystrGetPrevToken cs query before before
    if casecmpAt query token word then checkTokens rest before token else none

/-- `UPDATE` and `FOR`. -/
def forUpdate : List (List UInt8) := [[0x55, 0x50, 0x44, 0x41, 0x54, 0x45], [0x46, 0x4f, 0x52]]

/-- `MODE`, `SHARE`, `IN` and `LOCK`. -/
def lockInShareMode : List (List UInt8) :=
  [[0x4d, 0x4f, 0x44, 0x45], [0x53, 0x48, 0x41, 0x52, 0x45], [0x49, 0x4e],
    [0x4c, 0x4f, 0x43, 0x4b]]

/-- `check_row_locking`. -/
def checkRowLocking (isShareMode : Bool) : Option ℕ :=
  checkTokens cs query (if isShareMode then lockInShareMode else forUpdate) query.length 0

end Tokens

section Numbers

variable (cs : LimitCtype)

/-- A loop that steps over characters. -/
def skipWhile (p : List UInt8 → Bool) : List UInt8 → List UInt8
  | [] => []
  | c :: s => if p (c :: s) then skipWhile p s else c :: s

/-- A loop that collects characters. -/
def spanWhile (p : List UInt8 → Bool) : List UInt8 → List UInt8 × List UInt8
  | [] => ([], [])
  | c :: s => if p (c :: s) then (c :: (spanWhile p s).1, (spanWhile p s).2) else ([], c :: s)

/-- `atoll` and `atol` of the digits in `digit_buf`. -/
def atoll (digits : List UInt8) : ℕ :=
  min (Decimal.value (digits.takeWhile fun c => 0x30 ≤ c && c ≤ 0x39)) (2 ^ 63 - 1)

/-- The number in `digit_buf`, which has room for 29 digits and their end. -/
def digitBuf (digits : List UInt8) : Option ℕ :=
  if digits.length < 30 then some (atoll digits) else none

theorem digitBuf_lt {digits : List UInt8} {n : ℕ} (h : digitBuf digits = some n) :
    n < 2 ^ 63 := by
  unfold digitBuf at h
  split_ifs at h
  cases h
  exact (Nat.min_le_right _ _).trans_lt (by decide)

/-- `get_limit_numbers`: the offset, the number of rows and what is behind them. -/
def getLimitNumbers (query : List UInt8) : Option (ℕ × ℕ × List UInt8) :=
  let query := skipWhile (myodbcIsspace cs.toCtype) query
  let (digits, query) := spanWhile (myodbcIsnum cs.toCtype) query
  if digits = [] then some (0, 0, query)
  else do
    let offs ← digitBuf digits
    let query := skipWhile (fun s => !myodbcIsnum cs.toCtype s) query
    if query = [] then some (0, offs % 2 ^ 32, [])
    else
      let (digits, query) := spanWhile (myodbcIsnum cs.toCtype) query
      let rows ← digitBuf digits
      some (offs, rows % 2 ^ 32, query)

theorem getLimitNumbers_lt {query behind : List UInt8} {offset rows : ℕ}
    (h : getLimitNumbers cs query = some (offset, rows, behind)) :
    offset < 2 ^ 64 ∧ rows < 2 ^ 32 := by
  have hrows : ∀ n, n % 2 ^ 32 < 2 ^ 32 := fun n => Nat.mod_lt _ (by decide)
  unfold getLimitNumbers at h
  dsimp only at h
  split_ifs at h
  · cases h
    exact ⟨by decide, by decide⟩
  · obtain ⟨offs, -, h⟩ := Option.bind_eq_some_iff.mp h
    cases h
    exact ⟨by decide, hrows offs⟩
  · obtain ⟨offs, hoffs, h⟩ := Option.bind_eq_some_iff.mp h
    obtain ⟨n, -, h⟩ := Option.bind_eq_some_iff.mp h
    cases h
    exact ⟨(digitBuf_lt hoffs).trans (by decide), hrows n⟩

end Numbers

/-- `LIMIT`. -/
def limitWord : List UInt8 := [0x4c, 0x49, 0x4d, 0x49, 0x54]

/-- The loop over blanks at the end of the text. -/
def terminatorPos (cs : LimitCtype) (query : List UInt8) : ℕ → ℕ
  | 0 => 0
  | pos + 1 =>
    if queryByte query (pos + 1) = 0 || myodbcIsspace cs.toCtype (query.drop (pos + 1)) then
      terminatorPos cs query pos
    else pos + 1

theorem zero_lt_offset : 0 < 2 ^ 64 := Nat.two_pow_pos 64

theorem zero_lt_rowCount : 0 < 2 ^ 32 := Nat.two_pow_pos 32

/-- The clause that `find_position4limit` returns for a place in the text. -/
def clauseAt (query : List UInt8) (pos : ℕ) : LimitClause where
  offset := 0
  rowCount := 0
  before := query.take pos
  clause := []
  behind := query.drop pos
  offset_lt := zero_lt_offset
  rowCount_lt := zero_lt_rowCount

/-- `find_position4limit`. -/
def findPosition4limit (cs : LimitCtype) (query : List UInt8) : Option LimitClause :=
  match findToken cs query limitWord query.length with
  | some pos =>
    match h : getLimitNumbers cs (query.drop (pos + 5)) with
    | none => none
    | some (offset, rowCount, behind) => some {
      offset := offset
      rowCount := rowCount
      before := query.take pos
      clause := (query.drop pos).take ((query.drop pos).length - behind.length)
      behind := behind
      offset_lt := (getLimitNumbers_lt cs h).1
      rowCount_lt := (getLimitNumbers_lt cs h).2 }
  | none =>
    match (checkRowLocking cs query false).or (checkRowLocking cs query true) with
    | some 0 => none
    | some (pos + 1) => some (clauseAt query pos)
    | none =>
      let pos := terminatorPos cs query query.length
      some (clauseAt query (if queryByte query pos = 0x3b then pos else query.length))

/-- `FROM`. -/
def fromWord : List UInt8 := [0x46, 0x52, 0x4f, 0x4d]

/-- `scrollable`. -/
def scrollable (cs : LimitCtype) (isSelectStatement : Bool) (query : List UInt8) : Bool :=
  isSelectStatement &&
    let before := (mystrGetPrevToken cs query query.length query.length).2
    let prev := (mystrGetPrevToken cs query before before).1
    prev ≠ 0 && (casecmpAt query prev fromWord || (findToken cs query fromWord (prev - 1)).isSome)

namespace LimitCtype

variable (cs : LimitCtype)

/-- A blank of one byte. -/
def Blank (c : UInt8) : Prop := c < 0x80 ∧ cs.blankByte c = true

instance : DecidablePred cs.Blank := fun _ => instDecidableAnd

/-- A blank with a word behind it, in any case: the word may be a part of a longer one. -/
def TokenAt (query word : List UInt8) (i : ℕ) : Prop :=
  0 < i ∧ i ≤ query.length ∧ cs.Blank (queryByte query (i - 1)) ∧ StartsWith (query.drop i) word

end LimitCtype

variable {cs : LimitCtype} {query word : List UInt8} {pos thru : ℕ}

theorem blankAt_iff (hpos : pos < thru) (hthru : thru ≤ query.length) :
    blankAt cs query pos thru = true ↔ cs.Blank (queryByte query pos) := by
  have hlength : pos < (query.take thru).length := by
    rw [List.length_take]
    omega
  have hbyte : queryByte query pos = (query.take thru)[pos] := by
    rw [queryByte, List.getElem_take, List.getD_eq_getElem?_getD,
      List.getElem?_eq_getElem (by omega), Option.getD_some]
  rw [blankAt, Bool.and_eq_true, decide_eq_true_iff, List.drop_eq_getElem_cons hlength, ← hbyte]
  exact and_congr_right fun hascii => by rw [cs.isspace_ascii _ _ hascii]

theorem casecmpAt_iff (hword : 0 ∉ word) :
    casecmpAt query pos word = true ↔ StartsWith (query.drop pos) word := by
  obtain ⟨r, hr, hzero⟩ := @myodbcCasecmp_eq (query.drop pos) word [] hword
  rw [List.append_nil] at hr
  rw [casecmpAt, hr, decide_eq_true_iff, Option.some_inj, hzero]

/-- The blank that the previous token is behind, or there is none. -/
theorem mystrGetPrevToken_spec (hpos : pos ≤ thru) (hthru : thru ≤ query.length) :
    (mystrGetPrevToken cs query thru pos = (0, 0) ∧
      ∀ j < pos, ¬ cs.Blank (queryByte query j)) ∨
    ∃ i < pos, mystrGetPrevToken cs query thru pos = (i + 1, i) ∧
      cs.Blank (queryByte query i) ∧ ∀ j, i < j → j < pos → ¬ cs.Blank (queryByte query j) := by
  induction pos with
  | zero => exact Or.inl ⟨rfl, fun j hj => absurd hj (Nat.not_lt_zero j)⟩
  | succ pos ih =>
    have hblank := @blankAt_iff cs query pos thru hpos hthru
    rw [mystrGetPrevToken]
    split_ifs with h
    · refine Or.inr ⟨pos, Nat.lt_succ_self pos, rfl, hblank.mp h, fun j hj hj' => ?_⟩
      omega
    · rw [hblank] at h
      have hlast : ∀ j < pos + 1, (j < pos → ¬ cs.Blank (queryByte query j)) →
          ¬ cs.Blank (queryByte query j) := by
        intro j hj hbefore
        rcases Nat.lt_succ_iff_lt_or_eq.mp hj with hlt | rfl
        · exact hbefore hlt
        · exact h
      obtain ⟨heq, hnone⟩ | ⟨i, hi, heq, hi', hnone⟩ := ih (Nat.le_of_succ_le hpos)
      · exact Or.inl ⟨heq, fun j hj => hlast j hj (hnone j)⟩
      · exact Or.inr ⟨i, Nat.lt_succ_of_lt hi, heq, hi',
          fun j hij hj => hlast j hj (hnone j hij)⟩

/-- `find_token` finds the last blank with the word behind it. -/
theorem findToken_spec (hword : 0 ∉ word) {before : ℕ} (hbefore : before ≤ query.length) :
    (findToken cs query word before = none ∧ ∀ j ≤ before, ¬ cs.TokenAt query word j) ∨
    ∃ i ≤ before, findToken cs query word before = some i ∧ cs.TokenAt query word i ∧
      ∀ j, i < j → j ≤ before → ¬ cs.TokenAt query word j := by
  induction before using Nat.strong_induction_on with
  | _ before ih =>
    rw [findToken]
    have hnot : ∀ j, ¬ cs.Blank (queryByte query (j - 1)) → ¬ cs.TokenAt query word j :=
      fun j hj htoken => hj htoken.2.2.1
    obtain ⟨heq, hnone⟩ | ⟨i, hi, heq, hblank, hnone⟩ :=
      @mystrGetPrevToken_spec cs query before before (Nat.le_refl _) hbefore
    · rw [heq, dif_pos rfl]
      refine Or.inl ⟨rfl, fun j hj htoken => ?_⟩
      exact hnot j (hnone (j - 1) (by have := htoken.1; omega)) htoken
    · rw [heq, dif_neg (Nat.succ_ne_zero i)]
      have hbehind : ∀ j, i + 1 < j → j ≤ before → ¬ cs.TokenAt query word j :=
        fun j hj hj' => hnot j (hnone (j - 1) (by omega) (by omega))
      have hcase := @casecmpAt_iff query word (i + 1) hword
      split_ifs with hfound
      · have hstarts := hcase.mp hfound
        exact Or.inr ⟨i + 1, hi, rfl, ⟨Nat.succ_pos i, by omega, hblank, hstarts⟩, hbehind⟩
      · have hhere : ¬ cs.TokenAt query word (i + 1) := fun htoken =>
          hfound (hcase.mpr htoken.2.2.2)
        have hrest : ∀ j, i < j → j ≤ before → ¬ cs.TokenAt query word j := by
          intro j hj hj'
          rcases Nat.lt_or_eq_of_le (Nat.succ_le_of_lt hj) with hlt | heq
          · exact hbehind j hlt hj'
          · exact heq ▸ hhere
        obtain ⟨hfind, hnone'⟩ | ⟨k, hk, hfind, htoken, hnone'⟩ := ih i hi (by omega)
        · refine Or.inl ⟨hfind, fun j hj => ?_⟩
          rcases Nat.lt_or_ge i j with hlt | hge
          · exact hrest j hlt hj
          · exact hnone' j hge
        · refine Or.inr ⟨k, by omega, hfind, htoken, fun j hj hj' => ?_⟩
          rcases Nat.lt_or_ge i j with hlt | hge
          · exact hrest j hlt hj'
          · exact hnone' j hj hge

/-- A query is scrolled when it is a `SELECT` with `FROM` behind a blank and a blank behind it. -/
theorem scrollable_iff {isSelectStatement : Bool} :
    scrollable cs isSelectStatement query = true ↔ isSelectStatement = true ∧
      ∃ i j, cs.TokenAt query fromWord i ∧ i ≤ j ∧ j < query.length ∧
        cs.Blank (queryByte query j) := by
  have hzero : 0 ∉ fromWord := by decide
  rw [scrollable, Bool.and_eq_true]
  refine and_congr_right fun _ => ?_
  dsimp only
  obtain ⟨heq, hnone⟩ | ⟨last, hlast, heq, hblank, hbehind⟩ :=
    @mystrGetPrevToken_spec cs query query.length query.length (Nat.le_refl _) (Nat.le_refl _)
  · rw [heq]
    apply iff_of_false (by simp [mystrGetPrevToken])
    rintro ⟨i, j, -, -, hj, hblank⟩
    exact hnone j hj hblank
  rw [heq]
  dsimp only
  obtain ⟨heq', hnone⟩ | ⟨prev, hprev, heq', hblank', hbetween⟩ :=
    @mystrGetPrevToken_spec cs query last last (Nat.le_refl _) hlast.le
  · rw [heq']
    apply iff_of_false (by simp)
    rintro ⟨i, j, htoken, hij, hj, hblank'⟩
    have hi := htoken.1
    have hle : j ≤ last := Nat.le_of_not_lt fun hlt => hbehind j hlt hj hblank'
    exact hnone (i - 1) (by omega) htoken.2.2.1
  rw [heq']
  have hword := @casecmpAt_iff query fromWord (prev + 1) hzero
  have hhere : cs.TokenAt query fromWord (prev + 1) ↔
      casecmpAt query (prev + 1) fromWord = true := by
    rw [hword]
    exact ⟨fun h => h.2.2.2, fun h => ⟨Nat.succ_pos prev, by omega, hblank', h⟩⟩
  have hbefore : (findToken cs query fromWord prev).isSome = true ↔
      ∃ i ≤ prev, cs.TokenAt query fromWord i := by
    obtain ⟨hfind, hnone⟩ | ⟨i, hi, hfind, htoken, -⟩ :=
      @findToken_spec cs query fromWord hzero prev (by omega)
    · rw [hfind]
      exact iff_of_false Bool.false_ne_true fun ⟨i, hi, htoken⟩ => hnone i hi htoken
    · rw [hfind]
      exact iff_of_true rfl ⟨i, hi, htoken⟩
  rw [Nat.add_sub_cancel, Bool.and_eq_true, Bool.or_eq_true, ← hhere, hbefore]
  constructor
  · rintro ⟨-, htoken | ⟨i, hi, htoken⟩⟩
    · exact ⟨prev + 1, last, htoken, hprev, hlast, hblank⟩
    · exact ⟨i, last, htoken, by omega, hlast, hblank⟩
  · rintro ⟨i, j, htoken, hij, hj, hblank''⟩
    refine ⟨by simp, ?_⟩
    have hi := htoken.1
    have hle : j ≤ last := Nat.le_of_not_lt fun hlt => hbehind j hlt hj hblank''
    have hprev' : i - 1 ≤ prev :=
      Nat.le_of_not_lt fun hlt => hbetween (i - 1) hlt (by omega) htoken.2.2.1
    rcases Nat.lt_or_eq_of_le (show i ≤ prev + 1 by omega) with hlt | rfl
    · exact Or.inr ⟨i, by omega, htoken⟩
    · exact Or.inl htoken

theorem queryByte_append (front text : List UInt8) (i : ℕ) :
    queryByte (front ++ text) (front.length + i) = queryByte text i := by
  rw [queryByte, queryByte, List.getD_eq_getElem?_getD, List.getD_eq_getElem?_getD,
    List.getElem?_append_right (Nat.le_add_right _ _), Nat.add_sub_cancel_left]

/-- A blank with a word behind it in the second part of a text. -/
theorem token_append {front text : List UInt8} {i : ℕ} (hi : 0 < i) :
    cs.TokenAt (front ++ text) word (front.length + i) ↔ cs.TokenAt text word i := by
  have hindex : front.length + i - 1 = front.length + (i - 1) := by omega
  rw [LimitCtype.TokenAt, LimitCtype.TokenAt, hindex, queryByte_append, List.length_append,
    List.drop_length_add_append]
  exact and_congr (iff_of_true (by omega) hi) (and_congr (by omega) Iff.rfl)

/-- There is a blank with `LIMIT` behind it. -/
def LimitCtype.HasLimit (cs : LimitCtype) (query : List UInt8) : Prop :=
  ∃ i, cs.TokenAt query limitWord i

theorem zero_notMem_limitWord : 0 ∉ limitWord := by decide

section Loops

variable {p : List UInt8 → Bool} {s front : List UInt8}

/-- A loop stops here. -/
def Stops (p : List UInt8 → Bool) (s : List UInt8) : Prop := s = [] ∨ p s = false

theorem skipWhile_suffix (p : List UInt8 → Bool) (s : List UInt8) : skipWhile p s <:+ s := by
  induction s with
  | nil => exact List.suffix_refl []
  | cons c s ih =>
    rw [skipWhile]
    split_ifs
    · exact ih.trans (List.suffix_cons c s)
    · exact List.suffix_refl _

theorem skipWhile_stops (p : List UInt8 → Bool) (s : List UInt8) : Stops p (skipWhile p s) := by
  induction s with
  | nil => exact Or.inl rfl
  | cons c s ih =>
    rw [skipWhile]
    split_ifs with h
    · exact ih
    · exact Or.inr (eq_false_of_ne_true h)

theorem skipWhile_of_stops (h : Stops p s) : skipWhile p s = s := by
  cases s with
  | nil => rfl
  | cons c s =>
    obtain h | h := h
    · cases h
    · rw [skipWhile, h]
      rfl

theorem skipWhile_append (hfront : ∀ c ∈ front, ∀ s, p (c :: s) = true) (s : List UInt8) :
    skipWhile p (front ++ s) = skipWhile p s := by
  induction front with
  | nil => rfl
  | cons c front ih =>
    rw [List.cons_append, skipWhile, if_pos (hfront c List.mem_cons_self _)]
    exact ih fun d hd => hfront d (List.mem_cons_of_mem _ hd)

theorem spanWhile_append_snd (p : List UInt8 → Bool) (s : List UInt8) :
    (spanWhile p s).1 ++ (spanWhile p s).2 = s := by
  induction s with
  | nil => rfl
  | cons c s ih =>
    rw [spanWhile]
    split_ifs
    · exact congrArg (c :: ·) ih
    · rfl

theorem spanWhile_snd_suffix (p : List UInt8 → Bool) (s : List UInt8) : (spanWhile p s).2 <:+ s :=
  ⟨_, spanWhile_append_snd p s⟩

theorem spanWhile_of_stops (h : Stops p s) : spanWhile p s = ([], s) := by
  cases s with
  | nil => rfl
  | cons c s =>
    obtain h | h := h
    · cases h
    · rw [spanWhile, h]
      rfl

theorem spanWhile_append (hfront : ∀ c ∈ front, ∀ s, p (c :: s) = true) (hs : Stops p s) :
    spanWhile p (front ++ s) = (front, s) := by
  induction front with
  | nil => exact spanWhile_of_stops hs
  | cons c front ih =>
    have hrest := ih fun d hd => hfront d (List.mem_cons_of_mem _ hd)
    rw [List.cons_append, spanWhile, if_pos (hfront c List.mem_cons_self _), hrest]

end Loops

/-- What is behind the numbers is the end of the text. -/
theorem getLimitNumbers_suffix {text behind : List UInt8} {offset rows : ℕ}
    (h : getLimitNumbers cs text = some (offset, rows, behind)) : behind <:+ text := by
  have hblanks := skipWhile_suffix (myodbcIsspace cs.toCtype) text
  have hdigits := spanWhile_snd_suffix (myodbcIsnum cs.toCtype)
    (skipWhile (myodbcIsspace cs.toCtype) text)
  unfold getLimitNumbers at h
  dsimp only at h
  split_ifs at h
  · cases h
    exact hdigits.trans hblanks
  · obtain ⟨offs, -, h⟩ := Option.bind_eq_some_iff.mp h
    cases h
    exact List.nil_suffix
  · obtain ⟨offs, -, h⟩ := Option.bind_eq_some_iff.mp h
    obtain ⟨n, -, h⟩ := Option.bind_eq_some_iff.mp h
    cases h
    exact (spanWhile_snd_suffix _ _).trans
      ((skipWhile_suffix _ _).trans (hdigits.trans hblanks))

theorem clauseAt_text (query : List UInt8) (pos : ℕ) :
    (clauseAt query pos).before ++ ((clauseAt query pos).clause ++ (clauseAt query pos).behind) =
      query :=
  List.take_append_drop pos query

/-- Without the word nothing is cut out. -/
theorem findPosition4limit_of_none {limit : LimitClause}
    (hfind : findToken cs query limitWord query.length = none)
    (h : findPosition4limit cs query = some limit) : ∃ pos, limit = clauseAt query pos := by
  unfold findPosition4limit at h
  rw [hfind] at h
  dsimp only at h
  split at h
  · cases h
  · exact ⟨_, (Option.some.inj h).symm⟩
  · exact ⟨_, (Option.some.inj h).symm⟩

/-- With the word the numbers behind it decide how much is cut out. -/
theorem findPosition4limit_of_some {limit : LimitClause}
    (hfind : findToken cs query limitWord query.length = some pos) :
    findPosition4limit cs query = some limit ↔
      getLimitNumbers cs (query.drop (pos + 5)) =
        some (limit.offset, limit.rowCount, limit.behind) ∧ limit.before = query.take pos ∧
      limit.clause = (query.drop pos).take ((query.drop pos).length - limit.behind.length) := by
  unfold findPosition4limit
  rw [hfind]
  dsimp only
  split
  · rename_i hnumbers
    rw [hnumbers]
    simp
  · rename_i offset rowCount behind hnumbers
    obtain ⟨offset', rowCount', before', clause', behind', -, -⟩ := limit
    simp only [hnumbers, Option.some_inj, LimitClause.mk.injEq, Prod.mk.injEq]
    constructor
    · rintro ⟨rfl, rfl, rfl, rfl, rfl⟩
      exact ⟨⟨rfl, rfl, rfl⟩, rfl, rfl⟩
    · rintro ⟨⟨rfl, rfl, rfl⟩, rfl, rfl⟩
      exact ⟨rfl, rfl, rfl, rfl, rfl⟩

/-- The text is cut into three parts, and it is kept whole exactly when there is no blank with
`LIMIT` behind it, whatever it is a part of. If there is one, it is cut at the last. -/
theorem findPosition4limit_kept_iff {limit : LimitClause}
    (h : findPosition4limit cs query = some limit) :
    limit.before ++ (limit.clause ++ limit.behind) = query ∧
      (limit.before ++ limit.behind = query ↔ ¬ cs.HasLimit query) ∧
      (cs.HasLimit query → cs.TokenAt query limitWord limit.before.length) ∧
      ∀ i, cs.TokenAt query limitWord i → i ≤ limit.before.length := by
  obtain ⟨hfind, hnone⟩ | ⟨pos, hpos, hfind, htoken, hlast⟩ :=
    @findToken_spec cs query limitWord zero_notMem_limitWord query.length (Nat.le_refl _)
  · obtain ⟨pos, rfl⟩ := findPosition4limit_of_none hfind h
    have hnot : ¬ cs.HasLimit query := fun ⟨i, hi⟩ => hnone i hi.2.1 hi
    exact ⟨clauseAt_text query pos, iff_of_true (clauseAt_text query pos) hnot,
      fun hlimit => (hnot hlimit).elim, fun i hi => (hnot ⟨i, hi⟩).elim⟩
  · obtain ⟨hnumbers, hbefore, hclause⟩ := (findPosition4limit_of_some hfind).mp h
    have hbehind := getLimitNumbers_suffix hnumbers
    obtain ⟨skipped, hskipped⟩ : limit.behind <:+ query.drop pos := by
      apply hbehind.trans
      rw [← List.drop_drop]
      exact List.drop_suffix 5 _
    have hcut : limit.clause = skipped := by
      rw [hclause, ← hskipped, List.length_append, Nat.add_sub_cancel, List.take_left]
    have hlength : pos + 5 ≤ query.length := by
      have hle := htoken.2.2.2.length_le
      rw [List.length_map, List.length_map, List.length_drop] at hle
      have hfive : limitWord.length = 5 := rfl
      omega
    have hbeforeLength : limit.before.length = pos := by
      rw [hbefore, List.length_take]
      omega
    have hshorter : (limit.before ++ limit.behind).length < query.length := by
      have hle := hbehind.length_le
      rw [List.length_append, hbeforeLength]
      rw [List.length_drop] at hle
      omega
    refine ⟨?_, iff_of_false (fun heq => ?_) fun hnot => hnot ⟨pos, htoken⟩, fun _ => ?_, ?_⟩
    · rw [hcut, hskipped, hbefore, List.take_append_drop]
    · rw [heq] at hshorter
      exact Nat.lt_irrefl _ hshorter
    · rwa [hbeforeLength]
    · rw [hbeforeLength]
      intro i hi
      by_contra hlt
      exact hlast i (Nat.lt_of_not_le hlt) hi.2.1 hi

/-- The handler of `latin1`. -/
def limitLatin1 : LimitCtype where
  toCtype := ctypeLatin1
  blankByte c := ctypeLatin1Array.getD (c.toNat + 1) 0 &&& MY_SPC ≠ 0
  isspace_ascii _ _ _ := rfl
  isnum_ascii c s hascii := by
    have hall : ∀ n < 0x80, ctypeLatin1Array.getD (n + 1) 0 &&& MY_NMR ≠ 0 ↔
        0x30 ≤ n ∧ n ≤ 0x39 := by decide +kernel
    exact decide_eq_true_iff.trans (hall c.toNat (UInt8.lt_iff_toNat_lt.mp hascii))
  blankByte_printable c hlow hhigh := by
    have hall : ∀ n < 0x7f, 0x20 < n → ctypeLatin1Array.getD (n + 1) 0 &&& MY_SPC = 0 := by
      decide +kernel
    rw [UInt8.lt_iff_toNat_lt] at hlow hhigh
    exact decide_eq_false (not_not.mpr (hall c.toNat hhigh hlow))

/-- The numbers of a `LIMIT` clause: rows, or an offset and rows behind a comma, or rows and an
offset behind `OFFSET`. -/
inductive LimitText where
  | rows (count : List UInt8)
  | comma (offset between count : List UInt8)
  | withOffset (count between offset : List UInt8)

namespace LimitText

/-- The text. -/
def text : LimitText → List UInt8
  | rows count => count
  | comma offset between count => offset ++ (between ++ count)
  | withOffset count between offset => count ++ (between ++ offset)

/-- The offset that is meant. -/
def offsetValue : LimitText → ℕ
  | rows _ => 0
  | comma offset _ _ => Decimal.value offset
  | withOffset _ _ offset => Decimal.value offset

/-- The number of rows that is meant. -/
def countValue : LimitText → ℕ
  | rows count => Decimal.value count
  | comma _ _ count => Decimal.value count
  | withOffset count _ _ => Decimal.value count

/-- `OFFSET`. -/
def offsetWord : List UInt8 := [0x4f, 0x46, 0x46, 0x53, 0x45, 0x54]

/-- A number is of digits. -/
def IsNumber (digits : List UInt8) : Prop := digits ≠ [] ∧ ∀ c ∈ digits, Decimal.IsDigit c

/-- The numbers are of digits, and there is a comma or `OFFSET`, with blanks around it, between
them. -/
def Valid (cs : LimitCtype) : LimitText → Prop
  | rows count => IsNumber count
  | comma offset between count => IsNumber offset ∧ IsNumber count ∧
      ∃ left right, between = left ++ 0x2c :: right ∧ ∀ c ∈ left ++ right, cs.Blank c
  | withOffset count between offset => IsNumber count ∧ IsNumber offset ∧
      ∃ left word right, between = left ++ (word ++ right) ∧ SameType word offsetWord ∧
        ∀ c ∈ left ++ right, cs.Blank c

/-- The buffer has room for the numbers, their types hold them, nothing is behind a number of rows
alone, and both numbers are one if `OFFSET` is between them. -/
def Read (tail : List UInt8) : LimitText → Prop
  | rows count => count.length < 30 ∧ Decimal.value count < 2 ^ 32 ∧ tail = []
  | comma offset _ count => offset.length < 30 ∧ count.length < 30 ∧
      Decimal.value offset < 2 ^ 63 ∧ Decimal.value count < 2 ^ 32
  | withOffset count _ offset => count.length < 30 ∧ offset.length < 30 ∧
      Decimal.value count = Decimal.value offset ∧ Decimal.value count < 2 ^ 32

end LimitText

/-- A query with a `LIMIT` clause, and no `LIMIT` behind a blank in what is behind it. -/
structure LimitQuery (cs : LimitCtype) where
  front : List UInt8
  blank : UInt8
  keyword : List UInt8
  gap : List UInt8
  limit : LimitText
  tail : List UInt8
  blank_blank : cs.Blank blank
  keyword_eq : SameType keyword limitWord
  gap_blank : ∀ c ∈ gap, cs.Blank c
  valid : limit.Valid cs
  tail_stops : Stops (myodbcIsnum cs.toCtype) tail
  last : ¬ cs.HasLimit (gap ++ (limit.text ++ tail))

namespace LimitQuery

variable (q : LimitQuery cs)

/-- The text from the numbers on. -/
def rest : List UInt8 := q.gap ++ (q.limit.text ++ q.tail)

/-- The text. -/
def text : List UInt8 := q.front ++ q.blank :: (q.keyword ++ q.rest)

/-- The clause is what the server reads. -/
def Recognised : Prop :=
  ∃ limit, findPosition4limit cs q.text = some limit ∧ limit.offset = q.limit.offsetValue ∧
    limit.rowCount = q.limit.countValue ∧ limit.before = q.front ++ [q.blank] ∧
    limit.behind = q.tail

variable {q}

theorem keyword_length : q.keyword.length = 5 := by
  have h := congrArg List.length q.keyword_eq
  rwa [List.length_map, List.length_map] at h

/-- A letter of the keyword is no blank. -/
theorem not_blank_keyword {c : UInt8} (hc : c ∈ q.keyword) : ¬ cs.Blank c := by
  rintro ⟨-, hblank⟩
  have hmem : toupper c ∈ limitWord.map toupper := q.keyword_eq ▸ List.mem_map_of_mem hc
  have hletters : ∀ n < 256, toupper (UInt8.ofNat n) ∈ limitWord.map toupper →
      0x20 < UInt8.ofNat n ∧ UInt8.ofNat n < 0x7f := by decide +kernel
  obtain ⟨hlow, hhigh⟩ := hletters c.toNat c.toNat_lt (by rwa [UInt8.ofNat_toNat])
  rw [UInt8.ofNat_toNat] at hlow hhigh
  rw [cs.blankByte_printable c hlow hhigh] at hblank
  cases hblank

/-- The keyword is found. -/
theorem findToken_text :
    findToken cs q.text limitWord q.text.length = some (q.front.length + 1) := by
  have hstart : q.text = (q.front ++ [q.blank]) ++ (q.keyword ++ q.rest) := by
    rw [text, List.append_assoc, List.singleton_append]
  have hpos : (q.front ++ [q.blank]).length = q.front.length + 1 := by
    rw [List.length_append, List.length_singleton]
  have htoken : cs.TokenAt q.text limitWord (q.front.length + 1) := by
    refine ⟨Nat.succ_pos _, ?_, ?_, ?_⟩
    · rw [hstart, List.length_append, hpos]
      exact Nat.le_add_right _ _
    · rw [Nat.add_sub_cancel, text, ← Nat.add_zero q.front.length, queryByte_append]
      exact q.blank_blank
    · rw [hstart, ← hpos, List.drop_left, StartsWith, List.map_append, ← q.keyword_eq]
      exact List.prefix_append _ _
  have hbehind : ∀ j, q.front.length + 1 < j → ¬ cs.TokenAt q.text limitWord j := by
    intro j hj htoken
    obtain ⟨k, rfl⟩ := Nat.exists_eq_add_of_lt hj
    have hindex : q.front.length + 1 + k + 1 = (q.front ++ [q.blank]).length + (k + 1) := by
      rw [hpos, Nat.add_assoc _ k 1]
    rw [hindex, hstart, token_append (Nat.succ_pos k)] at htoken
    by_cases hk : k < 5
    · -- the blank would be a letter of the keyword
      have hlt : k < q.keyword.length := by rwa [keyword_length]
      have hbyte : queryByte (q.keyword ++ q.rest) (k + 1 - 1) = q.keyword[k] := by
        rw [Nat.add_sub_cancel, queryByte, List.getD_eq_getElem?_getD,
          List.getElem?_append_left hlt, List.getElem?_eq_getElem hlt, Option.getD_some]
      exact not_blank_keyword (List.getElem_mem hlt) (hbyte ▸ htoken.2.2.1)
    · obtain ⟨i, rfl⟩ := Nat.exists_eq_add_of_le (Nat.le_of_not_lt hk)
      have hindex : (5 + i).succ = q.keyword.length + (i + 1) := by
        rw [keyword_length]
        rfl
      rw [hindex, token_append (Nat.succ_pos i)] at htoken
      exact q.last ⟨i + 1, htoken⟩
  obtain ⟨-, hnone⟩ | ⟨i, -, hfind, hi, hlast⟩ :=
    @findToken_spec cs q.text limitWord zero_notMem_limitWord q.text.length (Nat.le_refl _)
  · exact (hnone _ htoken.2.1 htoken).elim
  · rcases Nat.lt_trichotomy i (q.front.length + 1) with hlt | rfl | hgt
    · exact (hlast _ hlt htoken.2.1 htoken).elim
    · exact hfind
    · exact (hbehind i hgt hi).elim

/-- What is recognised are the numbers and what is behind them. -/
theorem recognised_iff : q.Recognised ↔ getLimitNumbers cs q.rest =
    some (q.limit.offsetValue, q.limit.countValue, q.tail) := by
  have hstart : q.text = (q.front ++ [q.blank]) ++ (q.keyword ++ q.rest) := by
    rw [text, List.append_assoc, List.singleton_append]
  have hpos : (q.front ++ [q.blank]).length = q.front.length + 1 := by
    rw [List.length_append, List.length_singleton]
  have htake : q.text.take (q.front.length + 1) = q.front ++ [q.blank] := by
    rw [hstart, ← hpos, List.take_left]
  have hdrop : q.text.drop (q.front.length + 1 + 5) = q.rest := by
    rw [← List.drop_drop, hstart, ← hpos, List.drop_left, ← @keyword_length cs q, List.drop_left]
  have hfound := fun limit => @findPosition4limit_of_some cs q.text _ limit findToken_text
  simp only [hdrop, htake] at hfound
  constructor
  · rintro ⟨limit, hlimit, hoffset, hcount, -, hbehind⟩
    rw [← hoffset, ← hcount, ← hbehind]
    exact ((hfound limit).mp hlimit).1
  · intro hnumbers
    obtain ⟨hoffset, hcount⟩ := getLimitNumbers_lt cs hnumbers
    let clause := q.text.drop (q.front.length + 1)
    exact ⟨⟨q.limit.offsetValue, q.limit.countValue, q.front ++ [q.blank],
      clause.take (clause.length - q.tail.length), q.tail, hoffset, hcount⟩,
      (hfound _).mpr ⟨hnumbers, rfl, rfl⟩, rfl, rfl, rfl, rfl⟩

end LimitQuery

section Reading

variable {digits first second between gap tail s : List UInt8} {c : UInt8}

theorem ascii_of_isDigit (h : Decimal.IsDigit c) : c < 0x80 := by
  have hlt : c.toNat < 0x80 := by
    have := h.2
    omega
  exact UInt8.lt_iff_toNat_lt.mpr hlt

/-- A digit is a number and no blank. -/
theorem digit_types (h : Decimal.IsDigit c) (s : List UInt8) :
    myodbcIsnum cs.toCtype (c :: s) = true ∧ myodbcIsspace cs.toCtype (c :: s) = false := by
  have hascii := ascii_of_isDigit h
  refine ⟨(cs.isnum_ascii c s hascii).mpr h, ?_⟩
  rw [cs.isspace_ascii c s hascii]
  refine cs.blankByte_printable c (UInt8.lt_iff_toNat_lt.mpr ?_) (UInt8.lt_iff_toNat_lt.mpr ?_)
  · exact lt_of_lt_of_le (by decide) h.1
  · exact lt_of_le_of_lt h.2 (by decide)

/-- `digit_buf` with digits. -/
theorem digitBuf_number (h : LimitText.IsNumber digits) :
    digitBuf digits =
      if digits.length < 30 then some (min (Decimal.value digits) (2 ^ 63 - 1)) else none := by
  have hall : digits.takeWhile (fun c => 0x30 ≤ c && c ≤ 0x39) = digits := by
    refine List.takeWhile_eq_self_iff.mpr fun c hc => ?_
    obtain ⟨hlow, hhigh⟩ := h.2 c hc
    rw [Bool.and_eq_true, decide_eq_true_iff, decide_eq_true_iff]
    exact ⟨UInt8.le_iff_toNat_le.mpr hlow, UInt8.le_iff_toNat_le.mpr hhigh⟩
  rw [digitBuf, atoll, hall]

/-- The numbers behind blanks begin with all digits there are. -/
theorem getLimitNumbers_append (hgap : ∀ c ∈ gap, cs.Blank c) (hfirst : LimitText.IsNumber first)
    (hs : Stops (myodbcIsnum cs.toCtype) s) :
    getLimitNumbers cs (gap ++ (first ++ s)) = (digitBuf first).bind fun offs =>
      let query := skipWhile (fun s => !myodbcIsnum cs.toCtype s) s
      if query = [] then some (0, offs % 2 ^ 32, [])
      else (digitBuf (spanWhile (myodbcIsnum cs.toCtype) query).1).map fun rows =>
        (offs, rows % 2 ^ 32, (spanWhile (myodbcIsnum cs.toCtype) query).2) := by
  have hblanks : ∀ c ∈ gap, ∀ s, myodbcIsspace cs.toCtype (c :: s) = true :=
    fun c hc s => (cs.isspace_ascii c s (hgap c hc).1).trans (hgap c hc).2
  have hstart : Stops (myodbcIsspace cs.toCtype) (first ++ s) := by
    obtain ⟨c, rest, rfl⟩ := List.exists_cons_of_ne_nil hfirst.1
    exact Or.inr (digit_types (hfirst.2 c List.mem_cons_self) _).2
  have hdigits : ∀ c ∈ first, ∀ s, myodbcIsnum cs.toCtype (c :: s) = true :=
    fun c hc s => (digit_types (hfirst.2 c hc) s).1
  unfold getLimitNumbers
  rw [skipWhile_append hblanks, skipWhile_of_stops hstart]
  simp only [spanWhile_append hdigits hs, if_neg hfirst.1]
  cases digitBuf first with
  | none => split_ifs <;> rfl
  | some offs =>
    rw [Option.bind_some]
    split_ifs
    · rfl
    · rw [Option.map_eq_bind]
      rfl

/-- Two numbers with something between them that is neither. -/
theorem getLimitNumbers_two (hgap : ∀ c ∈ gap, cs.Blank c) (hfirst : LimitText.IsNumber first)
    (hne : between ≠ []) (hbetween : ∀ c ∈ between, c < 0x80 ∧ ¬ Decimal.IsDigit c)
    (hsecond : LimitText.IsNumber second) (htail : Stops (myodbcIsnum cs.toCtype) tail) :
    getLimitNumbers cs (gap ++ (first ++ (between ++ (second ++ tail)))) =
      (digitBuf first).bind fun offs => (digitBuf second).map fun rows =>
        (offs, rows % 2 ^ 32, tail) := by
  have hother : ∀ c ∈ between, ∀ s, myodbcIsnum cs.toCtype (c :: s) = false := by
    intro c hc s
    obtain ⟨hascii, hdigit⟩ := hbetween c hc
    exact eq_false_of_ne_true fun hnum => hdigit ((cs.isnum_ascii c s hascii).mp hnum)
  have hstop : Stops (myodbcIsnum cs.toCtype) (between ++ (second ++ tail)) := by
    obtain ⟨c, rest, rfl⟩ := List.exists_cons_of_ne_nil hne
    exact Or.inr (hother c List.mem_cons_self _)
  have hdigits : ∀ c ∈ second, ∀ s, myodbcIsnum cs.toCtype (c :: s) = true :=
    fun c hc s => (digit_types (hsecond.2 c hc) s).1
  have hskipped : skipWhile (fun s => !myodbcIsnum cs.toCtype s) (between ++ (second ++ tail)) =
      second ++ tail := by
    rw [skipWhile_append fun c hc s => by rw [hother c hc s]; rfl]
    refine skipWhile_of_stops (Or.inr ?_)
    obtain ⟨c, rest, rfl⟩ := List.exists_cons_of_ne_nil hsecond.1
    change (!myodbcIsnum cs.toCtype (c :: (rest ++ tail))) = false
    rw [hdigits c List.mem_cons_self]
    rfl
  have hnil : second ++ tail ≠ [] := fun h => hsecond.1 (List.append_eq_nil_iff.mp h).1
  rw [getLimitNumbers_append hgap hfirst hstop]
  simp only [hskipped, if_neg hnil, spanWhile_append hdigits htail]

/-- Behind a number of rows something is lost if there is anything. -/
theorem getLimitNumbers_one (hgap : ∀ c ∈ gap, cs.Blank c) (hfirst : LimitText.IsNumber first)
    (htail : Stops (myodbcIsnum cs.toCtype) tail) {offset rows : ℕ} :
    getLimitNumbers cs (gap ++ (first ++ tail)) = some (offset, rows, tail) ↔
      tail = [] ∧ offset = 0 ∧ ∃ n, digitBuf first = some n ∧ rows = n % 2 ^ 32 := by
  rw [getLimitNumbers_append hgap hfirst htail]
  constructor
  · intro h
    obtain ⟨n, hn, h⟩ := Option.bind_eq_some_iff.mp h
    dsimp only at h
    split_ifs at h with hnil
    · obtain ⟨hoffset, hrows, htail⟩ := by simpa using h
      exact ⟨htail, hoffset.symm, n, hn, hrows.symm⟩
    · obtain ⟨m, -, h⟩ := Option.map_eq_some_iff.mp h
      have hbehind : (spanWhile (myodbcIsnum cs.toCtype)
          (skipWhile (fun s => !myodbcIsnum cs.toCtype s) tail)).2 = tail := by
        simpa using congrArg (fun result => result.2.2) h
      -- at least one digit is taken from what is behind
      have hsuffix := (skipWhile_suffix (fun s => !myodbcIsnum cs.toCtype s) tail).length_le
      have hnumber := skipWhile_stops (fun s => !myodbcIsnum cs.toCtype s) tail
      obtain ⟨c, rest, hcons⟩ := List.exists_cons_of_ne_nil hnil
      rw [hcons] at hbehind hsuffix hnumber
      obtain hnumber | hnumber := hnumber
      · cases hnumber
      · rw [Bool.not_eq_false'] at hnumber
        rw [spanWhile, if_pos hnumber] at hbehind
        have hle := (spanWhile_snd_suffix (myodbcIsnum cs.toCtype) rest).length_le
        rw [show (spanWhile (myodbcIsnum cs.toCtype) rest).2 = tail from hbehind] at hle
        rw [List.length_cons] at hsuffix
        omega
  · rintro ⟨rfl, rfl, n, hn, rfl⟩
    rw [hn, Option.bind_some]
    rfl

end Reading

/-- A blank is no digit. -/
theorem LimitCtype.Blank.plain {c : UInt8} (h : cs.Blank c) : c < 0x80 ∧ ¬ Decimal.IsDigit c := by
  refine ⟨h.1, fun hdigit => ?_⟩
  have hspace := (cs.isspace_ascii c [] h.1).trans h.2
  rw [(digit_types hdigit []).2] at hspace
  cases hspace

/-- A comma with blanks around it is no number. -/
theorem plain_comma {left right : List UInt8} (hblank : ∀ c ∈ left ++ right, cs.Blank c) :
    ∀ c ∈ left ++ 0x2c :: right, c < 0x80 ∧ ¬ Decimal.IsDigit c := by
  intro c hc
  have hmem : c = 0x2c ∨ c ∈ left ++ right := by
    simp only [List.mem_append, List.mem_cons] at hc ⊢
    tauto
  obtain rfl | hmem := hmem
  · exact ⟨by decide, fun h => absurd h.1 (by decide)⟩
  · exact (hblank c hmem).plain

/-- Nor is `OFFSET`. -/
theorem plain_offset {left word right : List UInt8} (hword : SameType word LimitText.offsetWord)
    (hblank : ∀ c ∈ left ++ right, cs.Blank c) :
    left ++ (word ++ right) ≠ [] ∧
      ∀ c ∈ left ++ (word ++ right), c < 0x80 ∧ ¬ Decimal.IsDigit c := by
  constructor
  · intro hnil
    have hword' : word = [] := (List.append_eq_nil_iff.mp (List.append_eq_nil_iff.mp hnil).2).1
    rw [hword'] at hword
    exact absurd hword (by simp [SameType, LimitText.offsetWord])
  · intro c hc
    have hmem : c ∈ word ∨ c ∈ left ++ right := by
      simp only [List.mem_append] at hc ⊢
      tauto
    obtain hmem | hmem := hmem
    · have hletter : toupper c ∈ LimitText.offsetWord.map toupper :=
        hword ▸ List.mem_map_of_mem hmem
      have hletters : ∀ n < 256, toupper (UInt8.ofNat n) ∈ LimitText.offsetWord.map toupper →
          UInt8.ofNat n < 0x80 ∧ ¬ (UInt8.ofNat n).toNat ≤ 0x39 := by decide +kernel
      obtain ⟨hascii, hdigit⟩ := hletters c.toNat c.toNat_lt (by rwa [UInt8.ofNat_toNat])
      rw [UInt8.ofNat_toNat] at hascii hdigit
      exact ⟨hascii, fun h => hdigit h.2⟩
    · exact (hblank c hmem).plain

/-- When two numbers of digits are read as numbers that are given. -/
theorem digitBuf_two_iff {first second tail : List UInt8} {offset rows : ℕ}
    (hfirst : LimitText.IsNumber first) (hsecond : LimitText.IsNumber second) :
    ((digitBuf first).bind fun offs => (digitBuf second).map fun n => (offs, n % 2 ^ 32, tail)) =
        some (offset, rows, tail) ↔
      first.length < 30 ∧ second.length < 30 ∧
        min (Decimal.value first) (2 ^ 63 - 1) = offset ∧
        min (Decimal.value second) (2 ^ 63 - 1) % 2 ^ 32 = rows := by
  rw [digitBuf_number hfirst, digitBuf_number hsecond]
  by_cases h₁ : first.length < 30
  · by_cases h₂ : second.length < 30 <;> simp [h₁, h₂]
  · simp [h₁]

/-- A `LIMIT` clause is recognised as the server reads it exactly when the buffer has room for its
numbers, their types hold them, nothing is behind a number of rows alone, and the two numbers
around `OFFSET` are the same. -/
theorem LimitQuery.recognised_iff_read (q : LimitQuery cs) :
    q.Recognised ↔ q.limit.Read q.tail := by
  rw [LimitQuery.recognised_iff]
  obtain ⟨front, blank, keyword, gap, limit, tail, -, -, hgap, hvalid, htail, -⟩ := q
  dsimp only [LimitQuery.rest]
  cases limit with
  | rows count =>
    rw [LimitText.text, getLimitNumbers_one hgap hvalid htail, digitBuf_number hvalid]
    simp only [LimitText.offsetValue, LimitText.countValue, LimitText.Read]
    by_cases hlength : count.length < 30
    · simp only [hlength, if_true, Option.some_inj, exists_eq_left', true_and]
      have hvalue : Decimal.value count = min (Decimal.value count) (2 ^ 63 - 1) % 2 ^ 32 ↔
          Decimal.value count < 2 ^ 32 := by omega
      rw [hvalue, and_comm]
    · simp [hlength]
  | comma offset between count =>
    obtain ⟨hoffset, hcount, left, right, rfl, hblank⟩ := hvalid
    have hne : left ++ 0x2c :: right ≠ [] := by simp
    rw [LimitText.text, List.append_assoc, List.append_assoc,
      getLimitNumbers_two hgap hoffset hne (plain_comma hblank) hcount htail,
      digitBuf_two_iff hoffset hcount]
    simp only [LimitText.offsetValue, LimitText.countValue, LimitText.Read]
    omega
  | withOffset count between offset =>
    obtain ⟨hcount, hoffset, left, word, right, rfl, hword, hblank⟩ := hvalid
    obtain ⟨hne, hplain⟩ := plain_offset hword hblank
    rw [LimitText.text, List.append_assoc, List.append_assoc _ offset,
      getLimitNumbers_two hgap hcount hne hplain hoffset htail, digitBuf_two_iff hcount hoffset]
    simp only [LimitText.offsetValue, LimitText.countValue, LimitText.Read]
    omega

/-- `SELECT a FROM t LIMIT 5`. -/
def selectLimit : LimitQuery limitLatin1 where
  front :=
    [0x53, 0x45, 0x4c, 0x45, 0x43, 0x54, 0x20, 0x61, 0x20, 0x46, 0x52, 0x4f, 0x4d, 0x20, 0x74]
  blank := 0x20
  keyword := limitWord
  gap := [0x20]
  limit := .rows [0x35]
  tail := []
  blank_blank := by decide
  keyword_eq := rfl
  gap_blank := by
    intro c hc
    rw [List.mem_singleton.mp hc]
    decide
  valid := by
    refine ⟨List.cons_ne_nil _ _, fun c hc => ?_⟩
    rw [List.mem_singleton.mp hc]
    exact ⟨by decide, by decide⟩
  tail_stops := Or.inl rfl
  last := by
    rintro ⟨i, hpos, hle, hblank, hstarts⟩
    have hle : i ≤ 2 := hle
    interval_cases i
    · exact absurd hstarts (by decide)
    · exact absurd hstarts (by decide)

/-- The text of this query is cut. -/
theorem findPosition4limit_kept_iff_selectLimit : ∃ limit,
    findPosition4limit limitLatin1 selectLimit.text = some limit ∧
      limit.before ++ (limit.clause ++ limit.behind) = selectLimit.text ∧
      (limit.before ++ limit.behind = selectLimit.text ↔ ¬ limitLatin1.HasLimit selectLimit.text) ∧
      (limitLatin1.HasLimit selectLimit.text →
        limitLatin1.TokenAt selectLimit.text limitWord limit.before.length) ∧
      ∀ i, limitLatin1.TokenAt selectLimit.text limitWord i → i ≤ limit.before.length := by
  have hdigits : LimitText.IsNumber [0x35] := selectLimit.valid
  have hnumbers : getLimitNumbers limitLatin1 selectLimit.rest = some (0, 5, []) :=
    (getLimitNumbers_one selectLimit.gap_blank hdigits selectLimit.tail_stops).mpr
      ⟨rfl, rfl, 5, rfl, rfl⟩
  obtain ⟨limit, hlimit, -⟩ := LimitQuery.recognised_iff.mpr hnumbers
  exact ⟨limit, hlimit, findPosition4limit_kept_iff hlimit⟩

end MatrixOdbc.Driver
