import MatrixOdbc.Driver.DateTime
import MatrixOdbc.Driver.EnumSize
import MatrixOdbc.Driver.OutputContract

/-!
# The size of a parameter type

`proc_parse_sizes` and `proc_get_param_size` of `driver/utility.cc`. The length of what is to be
parsed is the distance of the first bracket that opens and the last one that closes, and a
pointer that has not been found is passed on. A number is read into a buffer of sixteen
bytes, of which nothing but the type text limits the use.
-/

namespace MatrixOdbc.Driver

open Util DateTime

/-- The loop over what is no digit, from the byte `ptype` points to on. -/
def skipNonDigits : List UInt8 → ℤ → Option (List UInt8 × ℤ)
  | [], _ => none
  | c :: mem, len =>
    if isdigit c then some (c :: mem, len)
    else if len < 0 ∨ c = 0x29 then some (c :: mem, len - 1)
    else skipNonDigits mem (len - 1)

/-- The loop over digits, with those in `number_to_parse`. The sixteenth one takes the place of the
terminator. -/
def readDigits : List UInt8 → ℤ → List UInt8 → Option (List UInt8 × ℤ × List UInt8)
  | [], _, _ => none
  | c :: mem, len, numberToParse =>
    if isdigit c then
      if len < 0 then some (c :: mem, len - 1, numberToParse)
      else if numberToParse.length < 15 then readDigits mem (len - 1) (numberToParse ++ [c])
      else none
    else some (c :: mem, len, numberToParse)

/-- One round of the loop over numbers: `none` if the loop ends in front of it, else what is left
and the digits. -/
def sizeRound (mem : List UInt8) (len : ℤ) : Option (Option (List UInt8 × ℤ × List UInt8)) :=
  if len ≤ 0 then some none
  else if mem.head? = some 0x29 then some none
  else ((skipNonDigits mem len).bind fun skipped => readDigits skipped.1 skipped.2 []).map some

/-- A number as an `SQLUINTEGER`. -/
def toSqluinteger (n : ℤ) : ℕ := (n % 2 ^ 32).toNat

/-- `proc_parse_sizes`: the size, and `*dec` that was so far. -/
def procParseSizes (ptype : Option (List UInt8)) (len dec : ℤ) : Option (ℕ × ℤ) :=
  match ptype with
  | none => some (0, dec)
  | some mem =>
    (sizeRound mem len).bind fun
      | none => some (0, dec)
      | some (mem, len, digits) =>
        (sizeRound mem len).map fun
          | none => (toSqluinteger (atoiDigits digits), dec)
          | some (_, _, digits') =>
            (toSqluinteger (atoiDigits digits), toSqlsmallint (atoiDigits digits'))

/-- `mysql_type` of the map of types. -/
inductive MysqlType where
  | string | bit | tiny | longlong | mediumBlob | blob | longBlob | tinyBlob | varString | vector
  | decimal | long | int24 | short | float | double | datetime | varchar | date | year | timestamp
  | time
  deriving DecidableEq

/-- What is used of a row of `SQL_TYPE_MAP_values`. -/
structure SqlTypeMap where
  typeName : String
  sqlBinary : Bool
  mysqlType : MysqlType
  typeLength : ℕ

/-- `SQL_NO_TOTAL`. -/
def SQL_NO_TOTAL : ℤ := -4

/-- The text of a data type, the length of which is an `int`. -/
structure TypeText where
  chars : List UInt8
  nonzero : 0 ∉ chars
  length_lt : chars.length < 2 ^ 31

/-- The last place of a byte. -/
def lastIndex (c : UInt8) : List UInt8 → Option ℕ
  | [] => none
  | d :: s => ((lastIndex c s).map (· + 1)).or (if d = c then some 0 else none)

/-- `start_pos`. -/
def TypeText.startPos (t : TypeText) : Option ℕ :=
  if 0x28 ∈ t.chars then some (t.chars.idxOf 0x28) else none

/-- `end_pos`. -/
def TypeText.endPos (t : TypeText) : Option ℕ := lastIndex 0x29 t.chars

/-- The bytes from `start_pos` on, up to the terminator of the text. -/
def TypeText.startBytes (t : TypeText) : Option (List UInt8) :=
  t.startPos.map fun i => t.chars.drop i ++ [0]

/-- `(int)(end_pos - start_pos)`. The distance of a pointer from a null pointer is not defined. -/
def TypeText.distance (t : TypeText) : Option ℤ :=
  match t.startPos, t.endPos with
  | some i, some j => some (((j : ℤ) - i).bmod (2 ^ 32))
  | none, none => some 0
  | _, _ => none

/-- `proc_parse_sizes` as it is called. -/
def TypeText.parseSizes (t : TypeText) (dec : ℤ) : Option (ℕ × ℤ) :=
  t.distance.bind fun len => procParseSizes t.startBytes len dec

/-- `proc_parse_enum_set` as it is called. -/
def TypeText.parseEnumSet (t : TypeText) (isEnum : Bool) : Option ℕ :=
  t.distance.bind fun len => procParseEnumSet t.startBytes len isEnum

/-- `proc_get_param_size`: the size and the decimal digits. -/
def procGetParamSize (t : TypeText) (entry : SqlTypeMap) : Option (ℕ × ℤ) :=
  match entry.mysqlType with
  | .decimal => (t.parseSizes SQL_NO_TOTAL).map fun r => (if r.1 = 0 then 10 else r.1, r.2)
  | .year => (t.parseSizes 0).map fun r => (if r.1 = 0 then 4 else r.1, r.2)
  | .varchar | .varString | .string =>
    if entry.typeName = "set" then (t.parseEnumSet false).map fun size => (size, SQL_NO_TOTAL)
    else if entry.typeName = "enum" then (t.parseEnumSet true).map fun size => (size, SQL_NO_TOTAL)
    else
      (t.parseSizes SQL_NO_TOTAL).map fun r => (if r.1 = 0 ∧ entry.sqlBinary then 1 else r.1, r.2)
  | .bit => (t.parseSizes SQL_NO_TOTAL).map fun r => (r.1, 0)
  | .datetime | .tiny | .short | .int24 | .long | .longlong => some (entry.typeLength, 0)
  | _ => some (entry.typeLength, SQL_NO_TOTAL)

/-- The next digits of a text and what is behind them. -/
def nextNumber (s : List UInt8) : Option (List UInt8 × List UInt8) :=
  if (s.dropWhile fun c => !isdigit c) = [] then none
  else some (((s.dropWhile fun c => !isdigit c).takeWhile isdigit),
    (s.dropWhile fun c => !isdigit c).dropWhile isdigit)

/-- What is behind the first bracket that opens. -/
def TypeText.tail (t : TypeText) : List UInt8 := (t.chars.dropWhile (· ≠ 0x28)).drop 1

/-- What is between the first bracket that opens and the next one that closes. -/
def TypeText.inside (t : TypeText) : List UInt8 :=
  if 0x29 ∈ t.tail then t.tail.takeWhile (· ≠ 0x29) else []

/-- The digits of the first number in the brackets. -/
def TypeText.firstNumber (t : TypeText) : Option (List UInt8) := (nextNumber t.inside).map Prod.fst

/-- The digits of the second number in the brackets. -/
def TypeText.secondNumber (t : TypeText) : Option (List UInt8) :=
  ((nextNumber t.inside).bind fun r => nextNumber r.2).map Prod.fst

/-- The type is one whose text is searched for brackets. -/
def SqlTypeMap.Parsed (entry : SqlTypeMap) : Prop :=
  entry.mysqlType ∈ [.decimal, .year, .varchar, .varString, .string, .bit]

/-- The type is one with members. -/
def SqlTypeMap.HasMembers (entry : SqlTypeMap) : Prop :=
  entry.mysqlType ∈ [.varchar, .varString, .string] ∧
    (entry.typeName = "set" ∨ entry.typeName = "enum")

/-- The numbers in the brackets are the size and the decimal digits. -/
def TypeText.Delivers (t : TypeText) (r : ℕ × ℤ) : Prop :=
  (∀ ds, t.firstNumber = some ds → r.1 = digitsValue ds) ∧
    ∀ ds, t.secondNumber = some ds → r.2 = (digitsValue ds : ℤ)

/-- The type text is parsed as it should be: no step is undefined, no null pointer is passed, and
the numbers in the brackets are the size and the decimal digits that `proc_parse_sizes` finds and
that `proc_get_param_size` returns. -/
structure SizeParsed (t : TypeText) (entry : SqlTypeMap) : Prop where
  isDefined : (procGetParamSize t entry).isSome = true
  notNull : entry.Parsed → t.startPos ≠ none
  parses : entry.Parsed → ¬ entry.HasMembers → ∀ dec, ∃ r, t.parseSizes dec = some r ∧ t.Delivers r
  delivers : entry.Parsed → ¬ entry.HasMembers →
    ∃ r, procGetParamSize t entry = some r ∧ t.Delivers r

/-- The numbers in the brackets have at most fifteen digits, and they fit the types of the size and
of the decimal digits. -/
def TypeText.NumbersFit (t : TypeText) : Prop :=
  (∀ ds, t.firstNumber = some ds → ds.length ≤ 15 ∧ digitsValue ds < 2 ^ 32) ∧
    ∀ ds, t.secondNumber = some ds → ds.length ≤ 15 ∧ digitsValue ds < 2 ^ 15

/-- The type has a size of its own, which takes the place of a size of zero. -/
def SqlTypeMap.HasDefault (entry : SqlTypeMap) : Prop :=
  entry.mysqlType ∈ [.decimal, .year] ∨
    entry.mysqlType ∈ [.varchar, .varString, .string] ∧ entry.sqlBinary = true

/-- No number of the text is replaced: neither a size of zero by the one of the type, nor decimal
digits of `BIT`, which are always zero. -/
def TypeText.NotReplaced (t : TypeText) (entry : SqlTypeMap) : Prop :=
  (entry.HasDefault → ∀ ds, t.firstNumber = some ds → digitsValue ds ≠ 0) ∧
    (entry.mysqlType = .bit → ∀ ds, t.secondNumber = some ds → digitsValue ds = 0)

variable {xs ys ds mem rest : List UInt8} {c : UInt8} {len dec : ℤ}

/-- What is no digit is skipped up to a bracket. -/
theorem skipNonDigits_append (hxs : ∀ c ∈ xs, isdigit c = false ∧ c ≠ 0x29)
    (hlen : xs.length ≤ len) :
    skipNonDigits (xs ++ ys) len = skipNonDigits ys (len - xs.length) := by
  induction xs generalizing len with
  | nil => simp
  | cons c xs ih =>
    obtain ⟨hdigit, hbracket⟩ := hxs c List.mem_cons_self
    rw [List.length_cons] at hlen ⊢
    have hgoes : ¬ (len < 0 ∨ c = 0x29) := not_or.mpr ⟨by omega, hbracket⟩
    rw [List.cons_append, skipNonDigits, hdigit, if_neg Bool.false_ne_true, if_neg hgoes,
      ih (fun d hd => hxs d (List.mem_cons_of_mem _ hd)) (by omega)]
    congr 1
    omega

/-- Digits are read if there is room for them and for the terminator. -/
theorem readDigits_append {numberToParse : List UInt8} (hds : ∀ d ∈ ds, isdigit d = true)
    (hc : isdigit c = false) (hlen : ds.length ≤ len) (hroom : numberToParse.length ≤ 15) :
    readDigits (ds ++ c :: ys) len numberToParse =
      if numberToParse.length + ds.length ≤ 15 then
        some (c :: ys, len - ds.length, numberToParse ++ ds)
      else none := by
  induction ds generalizing len numberToParse with
  | nil =>
    rw [List.nil_append, readDigits, hc, if_neg Bool.false_ne_true, if_pos (by simpa using hroom)]
    simp
  | cons d ds ih =>
    rw [List.length_cons] at hlen ⊢
    rw [List.cons_append, readDigits, if_pos (hds d List.mem_cons_self),
      if_neg (by omega : ¬ len < 0)]
    by_cases hfull : numberToParse.length < 15
    · have hlength : (numberToParse ++ [d]).length = numberToParse.length + 1 := by simp
      rw [if_pos hfull, ih (fun e he => hds e (List.mem_cons_of_mem _ he)) (by omega) (by omega),
        hlength]
      have hsame : numberToParse.length + 1 + ds.length = numberToParse.length + (ds.length + 1) := by
        omega
      have hleft : len - 1 - (ds.length : ℤ) = len - ((ds.length + 1 : ℕ) : ℤ) := by omega
      rw [hsame, hleft, List.append_assoc, List.singleton_append]
    · rw [if_neg hfull, if_neg (by omega)]

/-- A text falls into what is no digit, the next number and the rest. -/
theorem nextNumber_split (s : List UInt8) :
    (nextNumber s = none ∧ ∀ c ∈ s, isdigit c = false) ∨
      ∃ front ds rest, s = front ++ (ds ++ rest) ∧ nextNumber s = some (ds, rest) ∧
        (∀ c ∈ front, isdigit c = false) ∧ (∀ c ∈ ds, isdigit c = true) ∧ ds ≠ [] ∧
        ∀ c, rest.head? = some c → isdigit c = false := by
  have hfront : ∀ c ∈ s.takeWhile fun c => !isdigit c, isdigit c = false := by
    intro c hc
    simpa using List.mem_takeWhile_imp hc
  by_cases hnone : (s.dropWhile fun c => !isdigit c) = []
  · refine Or.inl ⟨by rw [nextNumber, if_pos hnone], ?_⟩
    have hs : s = s.takeWhile fun c => !isdigit c := by
      rw [← List.append_nil (s.takeWhile _), ← hnone, List.takeWhile_append_dropWhile]
    rw [hs]
    exact hfront
  · refine Or.inr ⟨s.takeWhile fun c => !isdigit c, _, _, ?_, by rw [nextNumber, if_neg hnone],
      hfront, fun c hc => List.mem_takeWhile_imp hc, ?_, ?_⟩
    · rw [List.takeWhile_append_dropWhile, List.takeWhile_append_dropWhile]
    · obtain ⟨c, tail, hcons⟩ := List.exists_cons_of_ne_nil hnone
      have hdigit := List.head?_dropWhile_not (fun c => !isdigit c) s
      rw [hcons, List.head?_cons] at hdigit
      rw [hcons, List.takeWhile_cons, if_pos (by simpa using hdigit)]
      exact List.cons_ne_nil _ _
    · intro c hc
      have hother := List.head?_dropWhile_not isdigit (s.dropWhile fun c => !isdigit c)
      rw [hc] at hother
      exact hother

/-- The loop over numbers ends at a bracket. -/
theorem sizeRound_close : sizeRound (0x29 :: rest) len = some none := by
  rw [sizeRound]
  split_ifs with hlen hclose
  · rfl
  · rfl
  · exact absurd rfl hclose

/-- One round over a text in front of a bracket. -/
theorem sizeRound_eq {s : List UInt8} (hs : ∀ c ∈ s, c ≠ 0x29) (hne : s ≠ [])
    (hlen : s.length ≤ len) :
    sizeRound (s ++ 0x29 :: rest) len =
      ((skipNonDigits (s ++ 0x29 :: rest) len).bind fun r => readDigits r.1 r.2 []).map some := by
  obtain ⟨c, s, rfl⟩ := List.exists_cons_of_ne_nil hne
  have hhead : ¬ ((c :: s) ++ 0x29 :: rest).head? = some 0x29 := by
    rw [List.cons_append, List.head?_cons, Option.some_inj]
    exact hs c List.mem_cons_self
  rw [List.length_cons] at hlen
  rw [sizeRound, if_neg (by omega), if_neg hhead]

/-- No number in front of the bracket. -/
theorem sizeRound_of_none {s : List UInt8} (hs : ∀ c ∈ s, c ≠ 0x29) (hne : s ≠ [])
    (hlen : s.length ≤ len) (hnumber : nextNumber s = none) :
    ∃ len', sizeRound (s ++ 0x29 :: rest) len = some (some (0x29 :: rest, len', [])) := by
  obtain ⟨-, hdigit⟩ | ⟨front, ds, tail, -, hsome, -⟩ := nextNumber_split s
  · rw [sizeRound_eq hs hne hlen,
      skipNonDigits_append (fun c hc => ⟨hdigit c hc, hs c hc⟩) hlen]
    refine ⟨len - s.length - 1, ?_⟩
    have hclose : isdigit 0x29 = false := by decide
    rw [skipNonDigits, hclose, if_neg Bool.false_ne_true, if_pos (Or.inr rfl), Option.bind_some,
      readDigits, hclose, if_neg Bool.false_ne_true]
    rfl
  · rw [hsome] at hnumber
    exact absurd hnumber (by simp)

/-- A number is read if it has at most fifteen digits. -/
theorem sizeRound_of_some {s tail : List UInt8} (hs : ∀ c ∈ s, c ≠ 0x29) (hlen : s.length ≤ len)
    (hnumber : nextNumber s = some (ds, tail)) :
    ∃ len' : ℤ, tail.length ≤ len' ∧ sizeRound (s ++ 0x29 :: rest) len =
      if ds.length ≤ 15 then some (some (tail ++ 0x29 :: rest, len', ds)) else none := by
  obtain ⟨hnone, -⟩ | ⟨front, ds', tail', hsplit, hsome, hfront, hdigits, hne, htail⟩ :=
    nextNumber_split s
  · rw [hnone] at hnumber
    exact absurd hnumber (by simp)
  · obtain ⟨rfl, rfl⟩ : ds' = ds ∧ tail' = tail := by
      rw [hsome, Option.some_inj, Prod.mk.injEq] at hnumber
      exact hnumber
    obtain ⟨d, ds, rfl⟩ := List.exists_cons_of_ne_nil hne
    have hlength := congrArg List.length hsplit
    simp only [List.length_append, List.length_cons] at hlength
    -- what is behind the digits is no digit: the rest of the text or the bracket
    obtain ⟨c, mem, hmem, hc⟩ : ∃ c mem, tail' ++ 0x29 :: rest = c :: mem ∧ isdigit c = false := by
      cases tail' with
      | nil => exact ⟨0x29, rest, rfl, by decide⟩
      | cons c tail' => exact ⟨c, _, rfl, htail c rfl⟩
    refine ⟨len - s.length + tail'.length, by omega, ?_⟩
    have hskip : skipNonDigits (s ++ 0x29 :: rest) len =
        some ((d :: ds) ++ (tail' ++ 0x29 :: rest), len - front.length) := by
      rw [hsplit, List.append_assoc, List.append_assoc,
        skipNonDigits_append (fun c hc => ⟨hfront c hc, hs c (by rw [hsplit]; simp [hc])⟩)
          (by omega), List.cons_append, skipNonDigits, if_pos (hdigits d List.mem_cons_self)]
    rw [sizeRound_eq hs (by rw [hsplit]; simp) hlen, hskip, Option.bind_some, hmem,
      readDigits_append hdigits hc (by rw [List.length_cons]; omega) (by simp), List.length_nil,
      Nat.zero_add, List.nil_append]
    have hleft : len - (front.length : ℤ) - ((d :: ds).length : ℤ) =
        len - s.length + tail'.length := by
      rw [List.length_cons]
      omega
    rw [hleft]
    split_ifs <;> rfl

/-- A bracket in front changes nothing about the numbers. -/
theorem nextNumber_bracket (s : List UInt8) : nextNumber (0x28 :: s) = nextNumber s := by
  have hbracket : (!isdigit 0x28) = true := by decide
  rw [nextNumber, nextNumber, List.dropWhile_cons, if_pos hbracket]

/-- What is behind a number is a part of the text. -/
theorem mem_of_nextNumber {s tail : List UInt8} (h : nextNumber s = some (ds, tail))
    (hc : c ∈ tail) : c ∈ s := by
  rw [nextNumber] at h
  split_ifs at h
  obtain ⟨-, rfl⟩ := Prod.mk.inj (Option.some.inj h)
  exact (List.dropWhile_suffix _).subset ((List.dropWhile_suffix _).subset hc)

/-- What `proc_parse_sizes` does between two brackets, number by number. -/
theorem procParseSizes_spec {inside : List UInt8} (hinside : ∀ c ∈ inside, c ≠ 0x29)
    (hlen : inside.length + 1 ≤ len) {r : Option (ℕ × ℤ)}
    (hr : procParseSizes (some (0x28 :: inside ++ 0x29 :: rest)) len dec = r) :
    (nextNumber inside = none ∧ r = some (0, dec)) ∨
      ∃ ds tail, nextNumber inside = some (ds, tail) ∧
        ((15 < ds.length ∧ r = none) ∨
          ds.length ≤ 15 ∧
            ((nextNumber tail = none ∧
                ∃ dec', r = some (toSqluinteger (atoiDigits ds), dec')) ∨
              ∃ ds' tail', nextNumber tail = some (ds', tail') ∧
                r = if ds'.length ≤ 15 then
                  some (toSqluinteger (atoiDigits ds), toSqlsmallint (atoiDigits ds'))
                else none)) := by
  have hs : ∀ c ∈ 0x28 :: inside, c ≠ 0x29 := by
    intro c hc
    obtain rfl | hc := List.mem_cons.mp hc
    · decide
    · exact hinside c hc
  have hlen' : ((0x28 :: inside).length : ℤ) ≤ len := by
    rw [List.length_cons]
    omega
  rw [procParseSizes] at hr
  cases hfirst : nextNumber inside with
  | none =>
    obtain ⟨len₁, hround⟩ := @sizeRound_of_none rest len _ hs (List.cons_ne_nil _ _) hlen'
      ((nextNumber_bracket inside).trans hfirst)
    rw [hround, Option.bind_some] at hr
    dsimp only at hr
    rw [sizeRound_close] at hr
    exact Or.inl ⟨rfl, hr.symm⟩
  | some number =>
    obtain ⟨ds, tail⟩ := number
    obtain ⟨len₁, hlen₁, hround⟩ := @sizeRound_of_some ds rest len _ tail hs hlen'
      ((nextNumber_bracket inside).trans hfirst)
    refine Or.inr ⟨ds, tail, rfl, ?_⟩
    by_cases hlong : ds.length ≤ 15
    · refine Or.inr ⟨hlong, ?_⟩
      have htail : ∀ c ∈ tail, c ≠ 0x29 := fun c hc => hinside c (mem_of_nextNumber hfirst hc)
      rw [hround, if_pos hlong, Option.bind_some] at hr
      dsimp only at hr
      cases hsecond : nextNumber tail with
      | none =>
        refine Or.inl ⟨rfl, ?_⟩
        rcases eq_or_ne tail [] with rfl | hne
        · rw [List.nil_append, sizeRound_close] at hr
          exact ⟨dec, hr.symm⟩
        · obtain ⟨len₂, hround₂⟩ := @sizeRound_of_none rest len₁ _ htail hne hlen₁ hsecond
          rw [hround₂] at hr
          exact ⟨_, hr.symm⟩
      | some number =>
        obtain ⟨ds', tail'⟩ := number
        obtain ⟨len₂, -, hround₂⟩ := @sizeRound_of_some ds' rest len₁ _ tail' htail hlen₁ hsecond
        refine Or.inr ⟨ds', tail', rfl, ?_⟩
        rw [hround₂] at hr
        rw [← hr]
        split_ifs <;> rfl
    · refine Or.inl ⟨by omega, ?_⟩
      rw [hround, if_neg hlong] at hr
      exact hr.symm

/-- A byte that is not there has no last place. -/
theorem lastIndex_eq_none_iff {s : List UInt8} : lastIndex c s = none ↔ c ∉ s := by
  induction s with
  | nil => simp [lastIndex]
  | cons d s ih =>
    rw [lastIndex, List.mem_cons, not_or, Option.or_eq_none_iff, Option.map_eq_none_iff, ih]
    by_cases hd : d = c
    · simp [hd]
    · simp [hd, Ne.symm hd]

/-- The last place is one of the text. -/
theorem lastIndex_lt {s : List UInt8} {i : ℕ} (h : lastIndex c s = some i) : i < s.length := by
  induction s generalizing i with
  | nil => exact absurd h (by simp [lastIndex])
  | cons d s ih =>
    rw [lastIndex, List.length_cons] at *
    cases hlast : lastIndex c s with
    | none =>
      rw [hlast, Option.map_none, Option.none_or] at h
      split_ifs at h
      obtain rfl := Option.some.inj h
      omega
    | some j =>
      rw [hlast, Option.map_some, Option.some_or, Option.some_inj] at h
      have hlt := ih hlast
      omega

/-- A byte behind is the last one. -/
theorem lastIndex_append_of_mem (h : c ∈ ys) :
    lastIndex c (xs ++ ys) = (lastIndex c ys).map (xs.length + ·) := by
  obtain ⟨i, hi⟩ := Option.ne_none_iff_exists'.mp fun hnone => lastIndex_eq_none_iff.mp hnone h
  induction xs with
  | nil => simp [hi]
  | cons d xs ih =>
    rw [List.cons_append, lastIndex, ih, hi]
    simp only [Option.map_some, Option.some_or, List.length_cons]
    congr 1
    omega

/-- If it is not behind the last one is in front. -/
theorem lastIndex_append_of_not_mem (h : c ∉ ys) : lastIndex c (xs ++ ys) = lastIndex c xs := by
  induction xs with
  | nil => rw [List.nil_append, lastIndex_eq_none_iff.mpr h, lastIndex]
  | cons d xs ih => rw [List.cons_append, lastIndex, ih, lastIndex]

/-- The text is split at its first bracket. -/
theorem TypeText.exists_split {t : TypeText} (h : 0x28 ∈ t.chars) :
    ∃ front, t.chars = front ++ 0x28 :: t.tail ∧ t.startPos = some front.length ∧
      t.startBytes = some (0x28 :: t.tail ++ [0]) := by
  have hfront : ∀ d ∈ t.chars.takeWhile (· ≠ 0x28), d ≠ 0x28 := by
    intro d hd
    simpa using List.mem_takeWhile_imp hd
  have hne : t.chars.dropWhile (· ≠ 0x28) ≠ [] := by
    intro hnil
    rw [← List.takeWhile_append_dropWhile (p := (· ≠ 0x28)) (l := t.chars), hnil,
      List.append_nil] at h
    exact hfront _ h rfl
  obtain ⟨d, tail, hcons⟩ := List.exists_cons_of_ne_nil hne
  have hhead := List.head?_dropWhile_not (· ≠ 0x28) t.chars
  rw [hcons, List.head?_cons] at hhead
  obtain rfl : d = 0x28 := by simpa using hhead
  have htail : t.tail = tail := by rw [TypeText.tail, hcons, List.drop_one, List.tail_cons]
  have hsplit : t.chars = t.chars.takeWhile (· ≠ 0x28) ++ 0x28 :: t.tail := by
    rw [htail, ← hcons, List.takeWhile_append_dropWhile]
  have hindex : t.startPos = some (t.chars.takeWhile (· ≠ 0x28)).length := by
    rw [TypeText.startPos, if_pos h, Option.some_inj]
    conv_lhs => rw [hsplit]
    rw [List.idxOf_append_of_notMem fun hmem => hfront _ hmem rfl, List.idxOf_cons_self,
      Nat.add_zero]
  have hdrop (front : List UInt8) (h : t.chars = front ++ 0x28 :: t.tail) :
      t.chars.drop front.length = 0x28 :: t.tail := by
    rw [h, List.drop_left]
  refine ⟨_, hsplit, hindex, ?_⟩
  rw [TypeText.startBytes, hindex, Option.map_some, hdrop _ hsplit]

/-- A text with a bracket that opens and none that closes has no distance. -/
theorem TypeText.distance_of_not_mem {t : TypeText} (hopen : 0x28 ∈ t.chars)
    (hclose : 0x29 ∉ t.chars) : t.distance = none := by
  obtain ⟨front, -, hstart, -⟩ := TypeText.exists_split hopen
  have hend : t.endPos = none := lastIndex_eq_none_iff.mpr hclose
  rw [TypeText.distance, hstart, hend]

/-- A bracket that closes behind the one that opens. -/
theorem TypeText.distance_of_mem_tail {t : TypeText} (hopen : 0x28 ∈ t.chars)
    (hclose : 0x29 ∈ t.tail) :
    ∃ (len : ℤ) (rest : List UInt8), t.distance = some len ∧ t.tail = t.inside ++ 0x29 :: rest ∧
      t.inside.length + 1 ≤ len ∧ len ≤ t.tail.length ∧ ∀ c ∈ t.inside, c ≠ 0x29 := by
  obtain ⟨front, hsplit, hstart, -⟩ := TypeText.exists_split hopen
  have hinside : t.inside = t.tail.takeWhile (· ≠ 0x29) := if_pos hclose
  have hnone : ∀ c ∈ t.inside, c ≠ 0x29 := by
    intro c hc
    rw [hinside] at hc
    simpa using List.mem_takeWhile_imp hc
  obtain ⟨rest, htail⟩ : ∃ rest, t.tail = t.inside ++ 0x29 :: rest := by
    have hsplit := List.takeWhile_append_dropWhile (p := (· ≠ 0x29)) (l := t.tail)
    rw [← hinside] at hsplit
    cases hdrop : t.tail.dropWhile (· ≠ 0x29) with
    | nil =>
      rw [← hsplit, hdrop, List.append_nil] at hclose
      exact absurd rfl (hnone _ hclose)
    | cons c rest =>
      have hhead := List.head?_dropWhile_not (· ≠ 0x29) t.tail
      rw [hdrop, List.head?_cons] at hhead
      obtain rfl : c = 0x29 := by simpa using hhead
      exact ⟨rest, by rw [← hdrop, hsplit]⟩
  obtain ⟨k, hk⟩ : ∃ k, lastIndex 0x29 (0x29 :: rest) = some k :=
    Option.ne_none_iff_exists'.mp fun h => lastIndex_eq_none_iff.mp h List.mem_cons_self
  have hend : t.endPos = some (front.length + (1 + (t.inside.length + k))) := by
    have hsame : t.chars = front ++ ([0x28] ++ (t.inside ++ 0x29 :: rest)) := by
      rw [hsplit, ← htail, List.singleton_append]
    rw [TypeText.endPos, hsame, lastIndex_append_of_mem (by simp), lastIndex_append_of_mem (by simp),
      lastIndex_append_of_mem (by simp), hk]
    simp
  have hlt := lastIndex_lt hend
  have hk' := lastIndex_lt hk
  have hlength := congrArg List.length htail
  rw [List.length_append] at hlength
  have hbound := t.length_lt
  refine ⟨1 + (t.inside.length + k), rest, ?_, htail, by omega, by omega, hnone⟩
  rw [TypeText.distance, hstart, hend]
  simp only [Option.some_inj, Int.bmod]
  omega

/-- A bracket that closes only in front of the one that opens. -/
theorem TypeText.distance_of_not_mem_tail {t : TypeText} (hopen : 0x28 ∈ t.chars)
    (hclose : 0x29 ∈ t.chars) (htail : 0x29 ∉ t.tail) :
    ∃ len : ℤ, t.distance = some len ∧ len < 0 := by
  obtain ⟨front, hsplit, hstart, -⟩ := TypeText.exists_split hopen
  have hbehind : (0x29 : UInt8) ∉ 0x28 :: t.tail := by
    rw [List.mem_cons, not_or]
    exact ⟨by decide, htail⟩
  have hend : t.endPos = lastIndex 0x29 front := by
    rw [TypeText.endPos, hsplit, lastIndex_append_of_not_mem hbehind]
  have hfront : (0x29 : UInt8) ∈ front := by
    rw [hsplit] at hclose
    exact (List.mem_append.mp hclose).resolve_right hbehind
  obtain ⟨k, hk⟩ := Option.ne_none_iff_exists'.mp fun h => lastIndex_eq_none_iff.mp h hfront
  have hlt := lastIndex_lt hk
  have hbound := t.length_lt
  have hlength := congrArg List.length hsplit
  rw [List.length_append] at hlength
  refine ⟨(k : ℤ) - front.length, ?_, by omega⟩
  rw [TypeText.distance, hstart, hend, hk]
  simp only [Option.some_inj, Int.bmod]
  omega

/-- The members are read from bytes that are there. -/
theorem scanEnumSet_isSome {n : ℕ} {s : EnumScan} (h : n ≤ mem.length) :
    (scanEnumSet mem n s).isSome = true := by
  induction mem generalizing n s with
  | nil =>
    rw [List.length_nil, Nat.le_zero] at h
    rw [h, scanEnumSet]
    rfl
  | cons c mem ih =>
    cases n with
    | zero => rfl
    | succ n =>
      rw [List.length_cons] at h
      rw [scanEnumSet]
      split_ifs
      · rfl
      · exact ih (by omega)

/-- Digits stand for a number below the power of their length. -/
theorem digitsValue_lt (hds : ∀ d ∈ ds, isdigit d = true) : digitsValue ds < 10 ^ ds.length := by
  induction ds using List.reverseRecOn with
  | nil => simp [digitsValue]
  | append_singleton ds d ih =>
    have hd : isdigit d = true := hds d (by simp)
    have hlt := ih fun e he => hds e (by simp [he])
    have hdigit : d.toNat ≤ 0x39 := by
      rw [isdigit, Bool.and_eq_true, decide_eq_true_eq, decide_eq_true_eq] at hd
      exact UInt8.le_iff_toNat_le.mp hd.2
    have hvalue : digitsValue (ds ++ [d]) = 10 * digitsValue ds + (d.toNat - 0x30) := by
      simp [digitsValue, List.foldl_append]
    rw [hvalue, List.length_append, List.length_singleton, pow_succ]
    omega

/-- The next number is made of digits. -/
theorem isdigit_of_nextNumber {s tail : List UInt8} (h : nextNumber s = some (ds, tail)) :
    ∀ d ∈ ds, isdigit d = true := by
  rw [nextNumber] at h
  split_ifs at h
  obtain ⟨rfl, -⟩ := Prod.mk.inj (Option.some.inj h)
  exact fun d hd => List.mem_takeWhile_imp hd

/-- `atoi` of at most fifteen digits. -/
theorem atoiDigits_eq (hds : ∀ d ∈ ds, isdigit d = true) (hlength : ds.length ≤ 15) :
    atoiDigits ds = (digitsValue ds : ℤ).bmod (2 ^ 32) := by
  have hlt := digitsValue_lt hds
  have hpow : 10 ^ ds.length ≤ 10 ^ 15 := Nat.pow_le_pow_right (by decide) hlength
  rw [atoiDigits, min_eq_left (by omega)]

/-- A number is kept as a size if it is an `SQLUINTEGER`. -/
theorem toSqluinteger_atoiDigits_iff (hds : ∀ d ∈ ds, isdigit d = true) (hlength : ds.length ≤ 15) :
    toSqluinteger (atoiDigits ds) = digitsValue ds ↔ digitsValue ds < 2 ^ 32 := by
  have hmod : ∀ n : ℕ, toSqluinteger ((n : ℤ).bmod (2 ^ 32)) = n % 2 ^ 32 := by
    intro n
    simp only [toSqluinteger, Int.bmod]
    omega
  rw [atoiDigits_eq hds hlength, hmod]
  omega

/-- A number is kept as decimal digits if it is an `SQLSMALLINT`. -/
theorem toSqlsmallint_atoiDigits_iff (hds : ∀ d ∈ ds, isdigit d = true) (hlength : ds.length ≤ 15) :
    toSqlsmallint (atoiDigits ds) = (digitsValue ds : ℤ) ↔ digitsValue ds < 2 ^ 15 := by
  have hbmod : toSqlsmallint (atoiDigits ds) = toSqlsmallint (digitsValue ds) := by
    rw [atoiDigits_eq hds hlength]
    exact Int.bmod_bmod_of_dvd (by decide)
  rw [hbmod, ← toSqlsmallint_eq_iff, one_mul]

/-- Between two brackets the numbers are delivered exactly if they fit. -/
theorem TypeText.parseSizes_iff {t : TypeText} (hopen : 0x28 ∈ t.chars) (hclose : 0x29 ∈ t.chars)
    (dec : ℤ) : (∃ r, t.parseSizes dec = some r ∧ t.Delivers r) ↔ t.NumbersFit := by
  by_cases htail : 0x29 ∈ t.tail
  · obtain ⟨len, rest, hdistance, hsplit, hlen, -, hinside⟩ :=
      TypeText.distance_of_mem_tail hopen htail
    obtain ⟨front, -, -, hbytes⟩ := TypeText.exists_split hopen
    have hcall : t.parseSizes dec =
        procParseSizes (some (0x28 :: t.inside ++ 0x29 :: (rest ++ [0]))) len dec := by
      rw [TypeText.parseSizes, hdistance, Option.bind_some, hbytes, hsplit]
      simp
    rw [hcall]
    generalize hr : procParseSizes (some (0x28 :: t.inside ++ 0x29 :: (rest ++ [0]))) len dec = r
    obtain ⟨hnone, rfl⟩ | ⟨ds, tail, hfirst, hcases⟩ := procParseSizes_spec hinside hlen hr
    · have hnone' : t.firstNumber = none ∧ t.secondNumber = none := by
        rw [TypeText.firstNumber, TypeText.secondNumber, hnone]
        exact ⟨rfl, rfl⟩
      simp [TypeText.NumbersFit, TypeText.Delivers, hnone'.1, hnone'.2]
    · have hdigits := isdigit_of_nextNumber hfirst
      have hfirst' : t.firstNumber = some ds := by
        rw [TypeText.firstNumber, hfirst]
        rfl
      have hsecond' : t.secondNumber = (nextNumber tail).map Prod.fst := by
        rw [TypeText.secondNumber, hfirst]
        rfl
      obtain ⟨hlong, rfl⟩ | ⟨hshort, hcases⟩ := hcases
      · refine iff_of_false (by simp) fun hfit => ?_
        have hle := (hfit.1 ds hfirst').1
        omega
      · have hsize := toSqluinteger_atoiDigits_iff hdigits hshort
        obtain ⟨hnone, dec', rfl⟩ | ⟨ds', tail', hsecond, rfl⟩ := hcases
        · simp [TypeText.NumbersFit, TypeText.Delivers, hfirst', hsecond', hnone, hsize, hshort]
        · have hdigits' := isdigit_of_nextNumber hsecond
          by_cases hshort' : ds'.length ≤ 15
          · have hdec := toSqlsmallint_atoiDigits_iff hdigits' hshort'
            simp [TypeText.NumbersFit, TypeText.Delivers, hfirst', hsecond', hsecond, hsize, hshort,
              hshort', hdec]
          · rw [if_neg hshort']
            refine iff_of_false (by simp) fun hfit => ?_
            exact hshort' (hfit.2 ds' (by rw [hsecond', hsecond]; rfl)).1
  · obtain ⟨len, hdistance, hneg⟩ := TypeText.distance_of_not_mem_tail hopen hclose htail
    obtain ⟨front, -, -, hbytes⟩ := TypeText.exists_split hopen
    have hcall : t.parseSizes dec = some (0, dec) := by
      rw [TypeText.parseSizes, hdistance, Option.bind_some, hbytes, procParseSizes, sizeRound,
        if_pos (by omega)]
      rfl
    have hinside : t.inside = [] := if_neg htail
    have hnone : t.firstNumber = none ∧ t.secondNumber = none := by
      rw [TypeText.firstNumber, TypeText.secondNumber, hinside]
      exact ⟨rfl, rfl⟩
    rw [hcall]
    simp [TypeText.NumbersFit, TypeText.Delivers, hnone.1, hnone.2]

/-- Between two brackets the members are read. -/
theorem TypeText.parseEnumSet_isSome {t : TypeText} (hopen : 0x28 ∈ t.chars)
    (hclose : 0x29 ∈ t.chars) (isEnum : Bool) : (t.parseEnumSet isEnum).isSome = true := by
  obtain ⟨front, -, -, hbytes⟩ := TypeText.exists_split hopen
  obtain ⟨len, hdistance, hlen⟩ : ∃ len : ℤ, t.distance = some len ∧ len ≤ t.tail.length := by
    by_cases htail : 0x29 ∈ t.tail
    · obtain ⟨len, -, hdistance, -, -, hlen, -⟩ := TypeText.distance_of_mem_tail hopen htail
      exact ⟨len, hdistance, hlen⟩
    · obtain ⟨len, hdistance, hneg⟩ := TypeText.distance_of_not_mem_tail hopen hclose htail
      exact ⟨len, hdistance, by omega⟩
  rw [TypeText.parseEnumSet, hdistance, Option.bind_some, hbytes, procParseEnumSet,
    Option.isSome_map, Option.getD_some]
  apply scanEnumSet_isSome
  simp only [List.length_append, List.length_cons]
  omega

/-- A type with members. -/
theorem procGetParamSize_of_members (t : TypeText) {entry : SqlTypeMap} (h : entry.HasMembers) :
    ∃ isEnum, procGetParamSize t entry =
      (t.parseEnumSet isEnum).map fun size => (size, SQL_NO_TOTAL) := by
  obtain ⟨htype, hname⟩ := h
  by_cases hset : entry.typeName = "set"
  · refine ⟨false, ?_⟩
    rw [procGetParamSize]
    simp only [List.mem_cons, List.not_mem_nil, or_false] at htype
    obtain htype | htype | htype := htype <;> simp [htype, hset]
  · refine ⟨true, ?_⟩
    have henum := hname.resolve_left hset
    rw [procGetParamSize]
    simp only [List.mem_cons, List.not_mem_nil, or_false] at htype
    obtain htype | htype | htype := htype <;> simp [htype, henum]

/-- A type with sizes: what has been parsed is returned, but for a size of zero of some types and
the decimal digits of `BIT`. -/
theorem procGetParamSize_of_sizes (t : TypeText) {entry : SqlTypeMap} (h : entry.Parsed)
    (hmembers : ¬ entry.HasMembers) :
    ∃ dec f, procGetParamSize t entry = (t.parseSizes dec).map f ∧
      ∀ r, ((f r).1 = r.1 ↔ (entry.HasDefault → r.1 ≠ 0)) ∧
        (f r).2 = if entry.mysqlType = .bit then 0 else r.2 := by
  have hdefault : ∀ size default : ℕ, default ≠ 0 →
      ((if size = 0 then default else size) = size ↔ size ≠ 0) := by
    intro size default hdefault
    split_ifs <;> omega
  rw [procGetParamSize]
  cases htype : entry.mysqlType <;>
    simp only [SqlTypeMap.Parsed, SqlTypeMap.HasMembers, htype, List.mem_cons, List.not_mem_nil,
      or_false, reduceCtorEq, or_self, or_true, true_and, false_and, not_or] at h hmembers
  case decimal => exact ⟨_, _, rfl, fun r => by simp [SqlTypeMap.HasDefault, htype, hdefault]⟩
  case year => exact ⟨_, _, rfl, fun r => by simp [SqlTypeMap.HasDefault, htype, hdefault]⟩
  case bit => exact ⟨_, _, rfl, fun r => by simp [SqlTypeMap.HasDefault, htype]⟩
  all_goals
    refine ⟨_, _, by rw [if_neg hmembers.1, if_neg hmembers.2], fun r => ?_⟩
    by_cases hbinary : entry.sqlBinary
    · simp [SqlTypeMap.HasDefault, htype, hbinary, hdefault]
    · simp [SqlTypeMap.HasDefault, htype, hbinary]

/-- What a type with sizes returns are the numbers exactly if those that are parsed are, and none
of them is replaced. -/
theorem procGetParamSize_delivers_iff (t : TypeText) {entry : SqlTypeMap} (h : entry.Parsed)
    (hmembers : ¬ entry.HasMembers)
    (hparses : ∀ dec, ∃ r, t.parseSizes dec = some r ∧ t.Delivers r) :
    (∃ r, procGetParamSize t entry = some r ∧ t.Delivers r) ↔ t.NotReplaced entry := by
  obtain ⟨dec, f, heq, hf⟩ := procGetParamSize_of_sizes t h hmembers
  obtain ⟨r, hr, hsize, hdec⟩ := hparses dec
  obtain ⟨hfirst, hsecond⟩ := hf r
  rw [heq, hr, Option.map_some]
  simp only [Option.some_inj, exists_eq_left', TypeText.Delivers, TypeText.NotReplaced, hsecond]
  refine and_congr ⟨fun hall hdefault ds hds => ?_, fun hall ds hds => ?_⟩
    ⟨fun hall hbit ds hds => ?_, fun hall ds hds => ?_⟩
  · rw [← hsize ds hds]
    exact hfirst.mp ((hall ds hds).trans (hsize ds hds).symm) hdefault
  · rw [← hsize ds hds]
    exact hfirst.mpr fun hdefault => hsize ds hds ▸ hall hdefault ds hds
  · have hvalue := hall ds hds
    rw [if_pos hbit] at hvalue
    exact_mod_cast hvalue.symm
  · split_ifs with hbit
    · exact_mod_cast (hall hbit ds hds).symm
    · exact hdec ds hds

/-- A type without either. -/
theorem procGetParamSize_of_not_parsed (t : TypeText) {entry : SqlTypeMap} (h : ¬ entry.Parsed) :
    (procGetParamSize t entry).isSome = true := by
  rw [procGetParamSize]
  cases htype : entry.mysqlType <;> simp [SqlTypeMap.Parsed, htype] at h ⊢

end MatrixOdbc.Driver
