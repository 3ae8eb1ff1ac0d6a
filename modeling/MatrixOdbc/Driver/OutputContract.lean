import MatrixOdbc.Driver.OutputStrings

/-!
# The contract of the output strings

For each of the sixteen functions the exact condition under which it keeps the contract of a
call that returns a text, whatever the text, the buffer, the pointers and the handle.
-/

namespace MatrixOdbc.Driver

open TextBuffer Util

variable {bits n : ℕ} {α : Type*} {nul : α}

/-- A length does not become longer as an `SQLINTEGER`. -/
theorem toSqlinteger_le (n : ℕ) : toSqlinteger n ≤ n := by
  simp only [toSqlinteger, Int.bmod]
  omega

/-- A length below `2 ^ 31` is an `SQLINTEGER`. -/
theorem toSqlinteger_of_lt (h : n < 2 ^ 31) : toSqlinteger n = n := by
  simp only [toSqlinteger, Int.bmod]
  omega

/-- The lengths that are an `SQLINTEGER`. -/
theorem toSqlinteger_eq_iff : toSqlinteger n = 1 * n ↔ n < 2 ^ 31 := by
  simp only [toSqlinteger, Int.bmod]
  omega

/-- The lengths that are an `SQLSMALLINT`. -/
theorem toSqlsmallint_eq_iff : toSqlsmallint n = 1 * n ↔ n < 2 ^ 15 := by
  simp only [toSqlsmallint, Int.bmod]
  omega

/-- The same if they are an `SQLINTEGER` in between. -/
theorem toSqlsmallint_toSqlinteger_eq_iff :
    toSqlsmallint (toSqlinteger n) = 1 * n ↔ n < 2 ^ 15 := by
  have hbmod : toSqlsmallint (toSqlinteger n) = toSqlsmallint n :=
    Int.bmod_bmod_of_dvd (by decide)
  rw [hbmod, toSqlsmallint_eq_iff]

/-- The lengths that are an `SQLSMALLINT` when they are counted in bytes. -/
theorem toSqlsmallint_bytes_eq_iff :
    toSqlsmallint (toSqlsmallint n * 2) = 2 * n ↔ n < 2 ^ 14 := by
  have hbmod : toSqlsmallint (toSqlsmallint n * 2) = toSqlsmallint (n * 2) := Int.bmod_mul_bmod
  rw [hbmod]
  simp only [toSqlsmallint, Int.bmod]
  omega

/-- The lengths that are an `SQLINTEGER` when they are counted in bytes. -/
theorem toSqlinteger_bytes_eq_iff : toSqlinteger (n * 2) = 2 * n ↔ n < 2 ^ 30 := by
  simp only [toSqlinteger, Int.bmod]
  omega

/-- The size of a buffer in units is half the one in bytes, rounded down. -/
theorem inUnits_smallint (a : OutArgs 16) : a.inUnits = a.max / 2 := by
  have hle := a.le_max
  have hlt := a.max_lt
  simp only [OutArgs.inUnits, Int.bmod]
  omega

theorem inUnits_integer (a : OutArgs 32) : a.inUnits = a.max / 2 := by
  have hle := a.le_max
  have hlt := a.max_lt
  simp only [OutArgs.inUnits, Int.bmod]
  omega

/-- `strmake` stores a text up to a length. -/
theorem strmake_eq {s : List UInt8} (h : 0 ∉ s) : strmake s n = s.take n ++ [0] := by
  induction n generalizing s with
  | zero => rw [strmake, List.take_zero, List.nil_append]
  | succ n ih =>
    cases s with
    | nil => rfl
    | cons c s =>
      rw [List.mem_cons, not_or] at h
      rw [strmake, if_neg (Ne.symm h.1), ih h.2, List.take_succ_cons, List.cons_append]

/-- The buffer as one of characters. -/
def OutArgs.inChars (a : OutArgs bits) : Offer := ⟨a.given, a.max, a.lenGiven⟩

/-- The buffer as one of units of two bytes. -/
def OutArgs.inBytes (a : OutArgs bits) : Offer := ⟨a.given, a.max / 2, a.lenGiven⟩

/-- A call copies to a buffer with room for a character and to no other, warns only if such a
text of `n` characters is cut, and does so if there is room for a character. -/
def OutArgs.Serves (a : OutArgs bits) (max : ℤ) (n : ℕ) (copies cuts : Bool) : Prop :=
  (copies = true ↔ a.given = true ∧ 1 ≤ max) ∧ (cuts = true → a.given = true ∧ max ≤ n) ∧
    (1 ≤ max → a.given = true → max ≤ n → cuts = true)

/-- The contract of a call that stores the longest prefix that fits or nothing. -/
theorem output_serves_iff {a : OutArgs bits} {text : List α} {max len unit : ℤ}
    {copies cuts : Bool} :
    (output nul text ⟨a.given, max, a.lenGiven⟩ copies cuts len).Meets nul text unit
        ⟨a.given, max, a.lenGiven⟩ ↔
      a.Serves max text.length copies cuts ∧ (a.lenGiven = true → len = unit * text.length) := by
  rw [output_meets_iff, OutArgs.Serves, Offer.Cuts]
  tauto

/-- An ANSI call keeps the contract if it serves its buffer and reports the length. -/
theorem returnChars_meets_iff {a : OutArgs bits} {value : CString} {copies cuts : Bool} {len : ℤ} :
    (Outcome.done (returnChars a value copies cuts len)).Meets 0 value.chars 1 a.inChars ↔
      a.Serves a.max value.chars.length copies cuts ∧
        (a.lenGiven = true → len = 1 * value.chars.length) := by
  have houtput : returnChars a value copies cuts len =
      output 0 value.chars a.inChars copies cuts len := by
    rw [returnChars, strmake_eq value.nonzero]
    rfl
  rw [meets_done, houtput]
  exact output_serves_iff

/-- Nothing is copied to a null pointer. -/
theorem copyOut_null {a : OutArgs bits} {src : List α} {count len : ℤ} {cuts : Bool}
    (h : a.given = false) : copyOut nul a src count cuts len = .undefined :=
  if_pos (Or.inl h)

/-- A copy that stores the longest prefix that fits. -/
theorem copyOut_fitting {a : OutArgs bits} {src text : List α} {max count len : ℤ} {cuts : Bool}
    (hgiven : a.given = true) (hcount : 0 ≤ count)
    (hfront : src.take count.toNat = text.take (max - 1).toNat) :
    copyOut nul a src count cuts len =
      .done (output nul text ⟨a.given, max, a.lenGiven⟩ true cuts len) := by
  have hdefined : ¬ (a.given = false ∨ count < 0) := by
    rw [hgiven]
    simpa using hcount
  rw [copyOut, if_neg hdefined, hfront]
  rfl

/-- A wide call keeps the contract if it serves its buffer and reports the length. -/
theorem returnUnits_meets_iff {a : OutArgs bits} {value : WideText} {max len unit : ℤ}
    {copies cuts : Bool} (hcopies : copies = true → 0 < max) :
    (returnUnits a value max copies cuts len).Meets 0 value.units unit ⟨a.given, max, a.lenGiven⟩ ↔
      a.Serves max value.units.length copies cuts ∧
        (a.lenGiven = true → len = unit * value.units.length) := by
  have hserves := @output_serves_iff bits SQLWCHAR 0 a value.units max len unit copies cuts
  rw [← hserves]
  cases copies with
  | false => rfl
  | true =>
    have hmax := hcopies rfl
    rw [returnUnits, if_pos rfl]
    cases hgiven : a.given with
    | false =>
      rw [copyOut_null hgiven]
      refine iff_of_false not_meets_undefined fun hmeets => ?_
      exact absurd (hmeets.inside _ rfl).1 Bool.false_ne_true
    | true =>
      have hcopy : ∀ count : ℤ, 0 ≤ count →
          value.units.take count.toNat = value.units.take (max - 1).toNat →
            copyOut 0 a value.units count cuts len =
              .done (output 0 value.units ⟨a.given, max, a.lenGiven⟩ true cuts len) :=
        fun _ => copyOut_fitting hgiven
      rw [hcopy, hgiven]
      · exact meets_done
      · split_ifs <;> omega
      · split_ifs with hall
        · rw [Int.toNat_natCast, List.take_length, List.take_of_length_le (by omega)]
        · rfl

/-- A warning that goes to the environment is one through a null pointer, and one that goes to the
connection replaces its error. -/
theorem report_meets_iff {handleType : HandleType} {readsError cuts : Bool} {outcome : Outcome α}
    {text : List α} {unit : ℤ} {offer : Offer} :
    (handleType.report readsError cuts outcome).Meets nul text unit offer ↔
      (cuts = true → handleType ≠ .env ∧ (handleType = .dbc → readsError = false)) ∧
        outcome.Meets nul text unit offer := by
  rw [HandleType.report]
  cases cuts with
  | false => simp
  | true => cases handleType <;> cases readsError <;> simp

/-- A call that does nothing without a buffer keeps the contract if no length is asked for. -/
theorem silent_meets_iff {a : OutArgs bits} {text : List α} {max unit : ℤ}
    (hgiven : a.given = false) :
    (Outcome.done (⟨none, none, false⟩ : Output α)).Meets nul text unit
      ⟨a.given, max, a.lenGiven⟩ ↔ a.lenGiven = false := by
  rw [hgiven]
  constructor
  · intro h
    by_contra hasked
    rw [Bool.not_eq_false] at hasked
    exact absurd (h.reported hasked) (by simp)
  · intro hasked
    refine ⟨fun xs hxs => absurd hxs (by simp), fun h => absurd h Bool.false_ne_true,
      fun h => absurd (hasked.symm.trans h) Bool.false_ne_true,
      fun h => absurd h Bool.false_ne_true, fun _ h => absurd h.1 Bool.false_ne_true⟩

/-- A text that reaches the end of the buffer does so too when its length is passed as
an `SQLINTEGER`. -/
def OutArgs.SeesEnd (a : OutArgs bits) (n : ℕ) : Prop :=
  1 ≤ a.max → a.max ≤ n → a.max ≤ toSqlinteger n

/-- A buffer of one character is left as it is, and there is a warning without a buffer. -/
theorem SQLColAttributeImpl_meets_iff (a : OutArgs 16) (numAttr : Bool) (value : CString) :
    (SQLColAttributeImpl a numAttr value).Meets 0 value.chars 1 a.inChars ↔
      (a.given = true → a.max ≠ 1 ∧ a.SeesEnd value.chars.length) ∧
        (a.given = false → numAttr = true → toSqlinteger value.chars.length < a.max) ∧
        (a.lenGiven = true → value.chars.length < 2 ^ 15) := by
  have hle := toSqlinteger_le value.chars.length
  rw [SQLColAttributeImpl, returnChars_meets_iff, toSqlsmallint_toSqlinteger_eq_iff]
  simp only [OutArgs.Serves, OutArgs.SeesEnd, Bool.and_eq_true, Bool.or_eq_true, decide_eq_true_eq]
  grind

/-- A buffer of one character is left as it is. -/
theorem SQLDescribeCol_meets_iff (a : OutArgs 16) (value : CString) :
    (SQLDescribeCol a value).Meets 0 value.chars 1 a.inChars ↔
      (a.given = true → a.max ≠ 1 ∧ a.SeesEnd value.chars.length) ∧
        (a.lenGiven = true → value.chars.length < 2 ^ 15) := by
  have hle := toSqlinteger_le value.chars.length
  rw [SQLDescribeCol, returnChars_meets_iff, toSqlsmallint_toSqlinteger_eq_iff]
  simp only [OutArgs.Serves, OutArgs.SeesEnd, Bool.and_eq_true, decide_eq_true_eq]
  grind

/-- Without a buffer there is not even a length. -/
theorem SQLGetConnectAttrImpl_meets_iff (a : OutArgs 32) (value : CString) :
    (SQLGetConnectAttrImpl a value).Meets 0 value.chars 1 a.inChars ↔
      (a.given = false → a.lenGiven = false) ∧
        (a.given = true → a.max ≠ -2 ^ 31 ∧ a.max ≠ 1 ∧ a.SeesEnd value.chars.length ∧
          (a.lenGiven = true → value.chars.length < 2 ^ 31)) := by
  have hle := toSqlinteger_le value.chars.length
  rw [SQLGetConnectAttrImpl]
  split_ifs with hgiven hmin
  · rw [OutArgs.inChars, silent_meets_iff hgiven, hgiven]
    simp
  · rw [Bool.not_eq_false] at hgiven
    exact iff_of_false not_meets_undefined fun h => (h.2 hgiven).1 hmin
  · rw [returnChars_meets_iff, toSqlinteger_eq_iff]
    simp only [OutArgs.Serves, OutArgs.SeesEnd, Bool.and_eq_true, decide_eq_true_eq]
    grind

/-- A negative size is refused, and a buffer of one character is left as it is. -/
theorem SQLGetCursorName_meets_iff (a : OutArgs 16) (name : CString) :
    (SQLGetCursorName a name).Meets 0 name.chars 1 a.inChars ↔
      (0 ≤ a.max → a.given = true → a.max ≠ 1 ∧ a.SeesEnd name.chars.length) ∧
        (0 ≤ a.max → a.lenGiven = true → name.chars.length < 2 ^ 15) := by
  have hle := toSqlinteger_le name.chars.length
  rw [SQLGetCursorName]
  split_ifs with hmax
  · exact iff_of_true meets_refused ⟨fun h => by omega, fun h => by omega⟩
  · rw [returnChars_meets_iff, toSqlsmallint_toSqlinteger_eq_iff]
    simp only [OutArgs.Serves, OutArgs.SeesEnd, Bool.and_eq_true, decide_eq_true_eq]
    grind

/-- The comparison of lengths as `size_t`. -/
theorem size_t_lt_iff (a : OutArgs 16) (value : CString) :
    (a.max - 1) % 2 ^ 64 < value.chars.length ↔ 1 ≤ a.max ∧ a.max ≤ value.chars.length := by
  have hle := a.le_max
  have hlt := a.max_lt
  have hlength := value.length_lt
  omega

/-- A text of an environment and one of the error of a connection must not be cut. -/
theorem SQLGetDiagField_meets_iff (handleType : HandleType) (ofError : Bool) (a : OutArgs 16)
    (value : CString) :
    (SQLGetDiagField handleType ofError a value).Meets 0 value.chars 1 a.inChars ↔
      (a.given = true → a.max ≠ 1 ∧ (1 ≤ a.max → a.max ≤ value.chars.length →
          handleType ≠ .env ∧ (handleType = .dbc → ofError = false))) ∧
        (a.lenGiven = true → value.chars.length < 2 ^ 15) := by
  rw [SQLGetDiagField, report_meets_iff, returnChars_meets_iff, toSqlsmallint_eq_iff]
  simp only [OutArgs.Serves, Bool.and_eq_true, decide_eq_true_eq, size_t_lt_iff]
  grind

/-- The length of the text does not matter where it is a `size_t`. -/
theorem SQLGetInfo_meets_iff (a : OutArgs 16) (value : CString) :
    (SQLGetInfo a value).Meets 0 value.chars 1 a.inChars ↔
      (a.given = true → a.max ≠ 1) ∧ (a.lenGiven = true → value.chars.length < 2 ^ 15) := by
  rw [SQLGetInfo, returnChars_meets_iff, toSqlsmallint_eq_iff]
  simp only [OutArgs.Serves, Bool.and_eq_true, decide_eq_true_eq, size_t_lt_iff]
  grind

/-- The contract of a call that returns an SQLSTATE besides the message, in a buffer that has room
for it. -/
def StateMeets (nul : α) (text : List α) (offer : Offer) (stateGiven : Bool) (state : List α)
    (result : Outcome α × Option (List α)) : Prop :=
  result.1.Meets nul text 1 offer ∧
    ((∃ sqlstate, result.1 = .refused sqlstate) ∧ result.2 = none ∨
      result.2 = if stateGiven then some (state ++ [nul]) else none)

/-- An SQLSTATE that is stored as a whole is no matter. -/
theorem stateMeets_iff {outcome : Outcome α} {text state : List α} {offer : Offer}
    {stateGiven : Bool} {stored : Option (List α)}
    (hstored : stored = if stateGiven then some (state ++ [nul]) else none) :
    StateMeets nul text offer stateGiven state (outcome, stored) ↔
      outcome.Meets nul text 1 offer :=
  ⟨fun h => h.1, fun h => ⟨h, Or.inr hstored⟩⟩

/-- Nothing is stored by a call that is refused. -/
theorem stateMeets_refused {text state : List α} {offer : Offer} {stateGiven : Bool} :
    StateMeets nul text offer stateGiven state (.refused none, none) :=
  ⟨meets_refused, Or.inl ⟨⟨none, rfl⟩, rfl⟩⟩

/-- A negative size is refused, and a message of an environment or a connection must not be cut. -/
theorem SQLGetDiagRecImpl_meets_iff (handleType : HandleType) (stateGiven : Bool)
    (state : SqlState (0 : UInt8)) (a : OutArgs 16) (message : CString) :
    StateMeets 0 message.chars a.inChars stateGiven state.chars
        (SQLGetDiagRecImpl handleType stateGiven state a message) ↔
      (0 ≤ a.max → a.given = true → a.max ≠ 1 ∧ (1 ≤ a.max → a.max ≤ message.chars.length →
          handleType ≠ .env ∧ handleType ≠ .dbc)) ∧
        (0 ≤ a.max → a.lenGiven = true → message.chars.length < 2 ^ 15) := by
  have hstate : strmake state.chars 5 = state.chars ++ [0] := by
    rw [strmake_eq state.nonzero, ← state.length_eq, List.take_length]
  rw [SQLGetDiagRecImpl, hstate]
  by_cases hmax : a.max < 0
  · rw [if_pos hmax]
    exact iff_of_true stateMeets_refused ⟨fun h => by omega, fun h => by omega⟩
  · rw [if_neg hmax, stateMeets_iff rfl, report_meets_iff, returnChars_meets_iff,
      toSqlsmallint_eq_iff]
    simp only [OutArgs.Serves, Bool.and_eq_true, decide_eq_true_eq, size_t_lt_iff]
    grind

/-- The statement is what is in front of its end in memory. -/
theorem NativeText.chars_eq [DecidableEq α] (s : NativeText nul) :
    s.chars = s.memory.take s.chars.length := by
  rw [← List.prefix_iff_eq_take, NativeText.chars]
  split_ifs
  · exact List.takeWhile_prefix _
  · exact List.take_prefix _ _

/-- `in_len`, measured or given. -/
theorem NativeText.inLen_eq [DecidableEq α] (s : NativeText nul) :
    (if s.inLen = SQL_NTS then toSqlinteger (s.memory.takeWhile (· ≠ nul)).length else s.inLen) =
      toSqlinteger s.chars.length := by
  rw [NativeText.chars]
  split_ifs with hnts
  · rfl
  · obtain ⟨h, -⟩ | ⟨hle, hlength, hlt⟩ := s.readable
    · exact absurd h hnts
    · rw [List.length_take, Nat.min_eq_left (by omega), toSqlinteger_of_lt (by omega)]
      omega

/-- A copy that ends without a warning does not keep the contract if the text is cut. -/
theorem copyOut_not_meets {a : OutArgs bits} {src text : List α} {count len unit : ℤ}
    {offer : Offer} (hroom : 1 ≤ offer.room) (hcuts : offer.Cuts text) :
    ¬ (copyOut nul a src count false len).Meets nul text unit offer := by
  rw [copyOut]
  by_cases hundefined : a.given = false ∨ count < 0
  · rw [if_pos hundefined]
    exact not_meets_undefined
  · rw [if_neg hundefined]
    exact fun h => absurd (h.warned hroom hcuts) Bool.false_ne_true

/-- The copy of a statement stores the longest prefix that fits if its length is seen to reach
the end of the buffer. -/
theorem NativeText.take_count [DecidableEq α] (s : NativeText nul) {max len : ℤ} (hmax : 0 < max)
    (hlen : len = s.chars.length ∨ max ≤ len ∧ len ≤ s.chars.length) :
    s.memory.take (if max - 1 < len then max - 1 else len).toNat =
      s.chars.take (max - 1).toNat := by
  rw [s.chars_eq, List.take_take]
  congr 1
  split_ifs <;> omega

/-- The statement is copied without a look at the pointer. -/
theorem nativeSql_meets_iff [DecidableEq α] (a : OutArgs 32) (s : NativeText nul) :
    (nativeSql a s).Meets nul s.chars 1 a.inChars ↔
      (a.given = false → a.max ≤ 0) ∧ (a.given = true → a.SeesEnd s.chars.length) ∧
        (a.lenGiven = true → s.chars.length < 2 ^ 31) := by
  have hle := toSqlinteger_le s.chars.length
  have hlt : s.chars.length < 2 ^ 31 → _ := toSqlinteger_of_lt
  have hmaxLt := a.max_lt
  rw [nativeSql, s.inLen_eq]
  generalize hlen : toSqlinteger s.chars.length = len at *
  have hreport : len = 1 * s.chars.length ↔ s.chars.length < 2 ^ 31 := by
    rw [← hlen, toSqlinteger_eq_iff]
  by_cases hmax : 0 < a.max
  · rw [if_pos hmax]
    cases hgiven : a.given with
    | false =>
      rw [copyOut_null hgiven]
      exact iff_of_false not_meets_undefined fun h => absurd (h.1 rfl) (by omega)
    | true =>
      by_cases hsees : a.SeesEnd s.chars.length
      · have hends : len = s.chars.length ∨ a.max ≤ len ∧ len ≤ s.chars.length := by
          rw [OutArgs.SeesEnd, hlen] at hsees
          omega
        rw [copyOut_fitting hgiven (by split_ifs <;> omega) (s.take_count hmax hends),
          OutArgs.inChars, meets_done, output_serves_iff, hreport]
        simp only [OutArgs.Serves, hgiven, Bool.true_and, decide_eq_true_eq]
        grind
      · have hcut : a.max ≤ s.chars.length ∧ len < a.max := by
          rw [OutArgs.SeesEnd, hlen] at hsees
          omega
        rw [Bool.true_and, decide_eq_false (by omega)]
        exact iff_of_false (copyOut_not_meets (by exact hmax) ⟨hgiven, hcut.1⟩)
          fun h => hsees (h.2.1 rfl)
  · have hoffer := @output_serves_iff 32 α nul a s.chars a.max len 1 false
      (a.given && decide (a.max ≤ len))
    rw [if_neg hmax, OutArgs.inChars]
    apply hoffer.trans
    rw [hreport]
    simp only [OutArgs.Serves, OutArgs.SeesEnd, Bool.and_eq_true, decide_eq_true_eq]
    grind

/-- The text is copied without a look at the pointer. -/
theorem SQLColAttributeWImpl_meets_iff (a : OutArgs 16) (numAttr : Bool) (value : WideText) :
    (SQLColAttributeWImpl a numAttr value).Meets 0 value.units 2 a.inBytes ↔
      (a.given = false → a.max < 2 ∧ numAttr = false) ∧
        (a.lenGiven = true → value.units.length < 2 ^ 14) := by
  rw [SQLColAttributeWImpl, inUnits_smallint]
  rw [OutArgs.inBytes, returnUnits_meets_iff (by simp), toSqlsmallint_bytes_eq_iff]
  simp only [OutArgs.Serves, Bool.and_eq_true, Bool.or_eq_true, decide_eq_true_eq]
  grind

/-- Only the length can be wrong. -/
theorem SQLDescribeColW_meets_iff (a : OutArgs 16) (value : WideText) :
    (SQLDescribeColW a value).Meets 0 value.units 1 a.inChars ↔
      (a.lenGiven = true → value.units.length < 2 ^ 15) := by
  rw [SQLDescribeColW]
  rw [OutArgs.inChars, returnUnits_meets_iff (by simp), toSqlsmallint_eq_iff]
  simp only [OutArgs.Serves, Bool.and_eq_true, decide_eq_true_eq]
  grind

/-- Without a buffer there is not even a length. -/
theorem SQLGetConnectAttrWImpl_meets_iff (a : OutArgs 32) (value : WideText) :
    (SQLGetConnectAttrWImpl a value).Meets 0 value.units 2 a.inBytes ↔
      (a.given = false → a.lenGiven = false) ∧
        (a.given = true → a.lenGiven = true → value.units.length < 2 ^ 30) := by
  rw [SQLGetConnectAttrWImpl, inUnits_integer]
  split_ifs with hgiven
  · rw [OutArgs.inBytes, silent_meets_iff hgiven, hgiven]
    simp
  · rw [OutArgs.inBytes, returnUnits_meets_iff (by simp), toSqlinteger_bytes_eq_iff]
    simp only [OutArgs.Serves, decide_eq_true_eq]
    grind

/-- The name is copied without a look at the pointer. -/
theorem SQLGetCursorNameW_meets_iff (a : OutArgs 16) (name : WideText) :
    (SQLGetCursorNameW a name).Meets 0 name.units 1 a.inChars ↔
      (a.given = false → a.max ≤ 0) ∧
        (0 ≤ a.max → a.lenGiven = true → name.units.length < 2 ^ 15) := by
  rw [SQLGetCursorNameW]
  split_ifs with hmax
  · exact iff_of_true meets_refused ⟨fun _ => by omega, fun h => by omega⟩
  · rw [OutArgs.inChars, returnUnits_meets_iff (by simp), toSqlsmallint_eq_iff]
    simp only [OutArgs.Serves, Bool.and_eq_true, decide_eq_true_eq]
    grind

/-- The text is copied without a look at the pointer, and a text of an environment must not
be cut. -/
theorem SQLGetDiagFieldW_meets_iff (handleType : HandleType) (a : OutArgs 16) (value : WideText) :
    (SQLGetDiagFieldW handleType a value).Meets 0 value.units 2 a.inBytes ↔
      (a.given = false → a.max < 2) ∧
        (a.given = true → a.max / 2 ≤ value.units.length → handleType ≠ .env) ∧
        (a.lenGiven = true → value.units.length < 2 ^ 14) := by
  rw [SQLGetDiagFieldW, inUnits_smallint]
  rw [report_meets_iff, OutArgs.inBytes, returnUnits_meets_iff (by simp),
    toSqlsmallint_bytes_eq_iff]
  simp only [OutArgs.Serves, Bool.and_eq_true, decide_eq_true_eq]
  grind

/-- The message is copied without a look at the pointer, and a message of an environment must not
be cut, nor one of a connection whose SQLSTATE is asked for. -/
theorem SQLGetDiagRecWImpl_meets_iff (handleType : HandleType) (stateGiven : Bool)
    (state : SqlState (0 : SQLWCHAR)) (a : OutArgs 16) (message : WideText) :
    StateMeets 0 message.units a.inChars stateGiven state.chars
        (SQLGetDiagRecWImpl handleType stateGiven state a message) ↔
      (a.given = false → a.max ≤ 0) ∧
        (a.given = true → 1 ≤ a.max → a.max ≤ message.units.length →
          handleType ≠ .env ∧ (handleType = .dbc → stateGiven = false)) ∧
        (0 ≤ a.max → a.lenGiven = true → message.units.length < 2 ^ 15) := by
  have hstate : state.chars.take 5 = state.chars := by
    rw [← state.length_eq, List.take_length]
  rw [SQLGetDiagRecWImpl, hstate]
  by_cases hmax : a.max < 0
  · rw [if_pos hmax]
    exact iff_of_true stateMeets_refused
      ⟨fun _ => by omega, fun _ h => by omega, fun h => by omega⟩
  · rw [if_neg hmax, stateMeets_iff rfl, report_meets_iff, OutArgs.inChars,
      returnUnits_meets_iff (by simp), toSqlsmallint_eq_iff]
    simp only [OutArgs.Serves, Bool.and_eq_true, decide_eq_true_eq]
    grind

/-- Only the length can be wrong. -/
theorem SQLGetInfoW_meets_iff (a : OutArgs 16) (value : WideText) :
    (SQLGetInfoW a value).Meets 0 value.units 2 a.inBytes ↔
      (a.lenGiven = true → value.units.length < 2 ^ 14) := by
  rw [SQLGetInfoW, inUnits_smallint]
  rw [OutArgs.inBytes, returnUnits_meets_iff (by simp), toSqlsmallint_bytes_eq_iff]
  simp only [OutArgs.Serves, Bool.and_eq_true, decide_eq_true_eq]
  grind

/-- A call of an ANSI function and the text that it is to return. -/
inductive AnsiCall where
  | colAttribute (a : OutArgs 16) (numAttr : Bool) (value : CString)
  | describeCol (a : OutArgs 16) (value : CString)
  | getConnectAttr (a : OutArgs 32) (value : CString)
  | getCursorName (a : OutArgs 16) (name : CString)
  | getDiagField (handleType : HandleType) (ofError : Bool) (a : OutArgs 16) (value : CString)
  | getDiagRec (handleType : HandleType) (stateGiven : Bool) (state : SqlState (0 : UInt8))
      (a : OutArgs 16) (message : CString)
  | getInfo (a : OutArgs 16) (value : CString)
  | nativeSql (a : OutArgs 32) (s : NativeText (0 : UInt8))

/-- A call of a wide function and the text that it is to return. -/
inductive WideCall where
  | colAttribute (a : OutArgs 16) (numAttr : Bool) (value : WideText)
  | describeCol (a : OutArgs 16) (value : WideText)
  | getConnectAttr (a : OutArgs 32) (value : WideText)
  | getCursorName (a : OutArgs 16) (name : WideText)
  | getDiagField (handleType : HandleType) (a : OutArgs 16) (value : WideText)
  | getDiagRec (handleType : HandleType) (stateGiven : Bool) (state : SqlState (0 : SQLWCHAR))
      (a : OutArgs 16) (message : WideText)
  | getInfo (a : OutArgs 16) (value : WideText)
  | nativeSql (a : OutArgs 32) (s : NativeText (0 : SQLWCHAR))

/-- The call keeps the contract. -/
def AnsiCall.Meets : AnsiCall → Prop
  | .colAttribute a numAttr value =>
    (SQLColAttributeImpl a numAttr value).Meets 0 value.chars 1 a.inChars
  | .describeCol a value => (SQLDescribeCol a value).Meets 0 value.chars 1 a.inChars
  | .getConnectAttr a value => (SQLGetConnectAttrImpl a value).Meets 0 value.chars 1 a.inChars
  | .getCursorName a name => (SQLGetCursorName a name).Meets 0 name.chars 1 a.inChars
  | .getDiagField handleType ofError a value =>
    (SQLGetDiagField handleType ofError a value).Meets 0 value.chars 1 a.inChars
  | .getDiagRec handleType stateGiven state a message =>
    StateMeets 0 message.chars a.inChars stateGiven state.chars
      (SQLGetDiagRecImpl handleType stateGiven state a message)
  | .getInfo a value => (SQLGetInfo a value).Meets 0 value.chars 1 a.inChars
  | .nativeSql a s => (SQLNativeSql a s).Meets 0 s.chars 1 a.inChars

/-- The call keeps the contract. -/
def WideCall.Meets : WideCall → Prop
  | .colAttribute a numAttr value =>
    (SQLColAttributeWImpl a numAttr value).Meets 0 value.units 2 a.inBytes
  | .describeCol a value => (SQLDescribeColW a value).Meets 0 value.units 1 a.inChars
  | .getConnectAttr a value => (SQLGetConnectAttrWImpl a value).Meets 0 value.units 2 a.inBytes
  | .getCursorName a name => (SQLGetCursorNameW a name).Meets 0 name.units 1 a.inChars
  | .getDiagField handleType a value =>
    (SQLGetDiagFieldW handleType a value).Meets 0 value.units 2 a.inBytes
  | .getDiagRec handleType stateGiven state a message =>
    StateMeets 0 message.units a.inChars stateGiven state.chars
      (SQLGetDiagRecWImpl handleType stateGiven state a message)
  | .getInfo a value => (SQLGetInfoW a value).Meets 0 value.units 2 a.inBytes
  | .nativeSql a s => (SQLNativeSqlW a s).Meets 0 s.chars 1 a.inChars

/-- What an ANSI function asks of its arguments to keep the contract. -/
def AnsiCall.WellServed : AnsiCall → Prop
  | .colAttribute a numAttr value =>
    (a.given = true → a.max ≠ 1 ∧ a.SeesEnd value.chars.length) ∧
      (a.given = false → numAttr = true → toSqlinteger value.chars.length < a.max) ∧
      (a.lenGiven = true → value.chars.length < 2 ^ 15)
  | .describeCol a value =>
    (a.given = true → a.max ≠ 1 ∧ a.SeesEnd value.chars.length) ∧
      (a.lenGiven = true → value.chars.length < 2 ^ 15)
  | .getConnectAttr a value =>
    (a.given = false → a.lenGiven = false) ∧
      (a.given = true → a.max ≠ -2 ^ 31 ∧ a.max ≠ 1 ∧ a.SeesEnd value.chars.length ∧
        (a.lenGiven = true → value.chars.length < 2 ^ 31))
  | .getCursorName a name =>
    (0 ≤ a.max → a.given = true → a.max ≠ 1 ∧ a.SeesEnd name.chars.length) ∧
      (0 ≤ a.max → a.lenGiven = true → name.chars.length < 2 ^ 15)
  | .getDiagField handleType ofError a value =>
    (a.given = true → a.max ≠ 1 ∧ (1 ≤ a.max → a.max ≤ value.chars.length →
        handleType ≠ .env ∧ (handleType = .dbc → ofError = false))) ∧
      (a.lenGiven = true → value.chars.length < 2 ^ 15)
  | .getDiagRec handleType _ _ a message =>
    (0 ≤ a.max → a.given = true → a.max ≠ 1 ∧ (1 ≤ a.max → a.max ≤ message.chars.length →
        handleType ≠ .env ∧ handleType ≠ .dbc)) ∧
      (0 ≤ a.max → a.lenGiven = true → message.chars.length < 2 ^ 15)
  | .getInfo a value =>
    (a.given = true → a.max ≠ 1) ∧ (a.lenGiven = true → value.chars.length < 2 ^ 15)
  | .nativeSql a s =>
    (a.given = false → a.max ≤ 0) ∧ (a.given = true → a.SeesEnd s.chars.length) ∧
      (a.lenGiven = true → s.chars.length < 2 ^ 31)

/-- What a wide function asks of its arguments to keep the contract. -/
def WideCall.WellServed : WideCall → Prop
  | .colAttribute a numAttr value =>
    (a.given = false → a.max < 2 ∧ numAttr = false) ∧
      (a.lenGiven = true → value.units.length < 2 ^ 14)
  | .describeCol a value => a.lenGiven = true → value.units.length < 2 ^ 15
  | .getConnectAttr a value =>
    (a.given = false → a.lenGiven = false) ∧
      (a.given = true → a.lenGiven = true → value.units.length < 2 ^ 30)
  | .getCursorName a name =>
    (a.given = false → a.max ≤ 0) ∧
      (0 ≤ a.max → a.lenGiven = true → name.units.length < 2 ^ 15)
  | .getDiagField handleType a value =>
    (a.given = false → a.max < 2) ∧
      (a.given = true → a.max / 2 ≤ value.units.length → handleType ≠ .env) ∧
      (a.lenGiven = true → value.units.length < 2 ^ 14)
  | .getDiagRec handleType stateGiven _ a message =>
    (a.given = false → a.max ≤ 0) ∧
      (a.given = true → 1 ≤ a.max → a.max ≤ message.units.length →
        handleType ≠ .env ∧ (handleType = .dbc → stateGiven = false)) ∧
      (0 ≤ a.max → a.lenGiven = true → message.units.length < 2 ^ 15)
  | .getInfo a value => a.lenGiven = true → value.units.length < 2 ^ 14
  | .nativeSql a s =>
    (a.given = false → a.max ≤ 0) ∧ (a.given = true → a.SeesEnd s.chars.length) ∧
      (a.lenGiven = true → s.chars.length < 2 ^ 31)

end MatrixOdbc.Driver
