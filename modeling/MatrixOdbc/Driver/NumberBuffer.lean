import MatrixOdbc.Foundations.Loop
import MatrixOdbc.Driver.InsertParam

/-!
# Numbers that are given as text

The loop in `insert_param` of `driver/execute.cc` that takes the separators of the
locale out of a number. It writes to the local buffer `buff` without a look at its
size. Every round moves on in the value, so the loop ends; what it writes is what
remains of the value without its thousands separators.
-/

namespace MatrixOdbc.Driver

open WhileLoop

/-- The separators that `setlocale` has given. They are C strings. -/
structure NumberLocale where
  thousandsSep : List UInt8
  decimalPoint : List UInt8
  thousandsSep_nul : 0 ∉ thousandsSep
  decimalPoint_nul : 0 ∉ decimalPoint

/-- The separators the loop looks for: `,` and `.` unless the option `NO_LOCALE` is set. -/
def NumberLocale.separators (locale : NumberLocale) (optNoLocale : Bool) : NumberLocale :=
  if optNoLocale then locale else ⟨[0x2c], [0x2e], by decide, by decide⟩

/-- `from[0] == sep[0] && is_prefix(from, sep)`. -/
def numberSeparatorAt (sep text : List UInt8) : Bool :=
  text.headD 0 == sep.headD 0 && sep.isPrefixOf text

/-- The value from `from` on and what has been written to `buff`. -/
structure CleanState where
  source : List UInt8
  written : List UInt8

/-- One evaluation of the loop. The bytes `behind` are the ones in memory behind the value;
a separator may reach into them. -/
def cleanBody (locale : NumberLocale) (behind : List UInt8) (s : CleanState) :
    Step CleanState (List UInt8) :=
  match s.source with
  | [] => .done s.written
  | c :: rest =>
    if c = 0 then .done s.written
    else if numberSeparatorAt locale.thousandsSep (c :: rest ++ behind) then
      .next ⟨(c :: rest).drop locale.thousandsSep.length, s.written⟩
    else if numberSeparatorAt locale.decimalPoint (c :: rest ++ behind) then
      .next ⟨(c :: rest).drop locale.decimalPoint.length, s.written ++ [0x2e]⟩
    else .next ⟨rest, s.written ++ [c]⟩

/-- What is in the buffer in the end. -/
def numberWritten (written : List UInt8) : List UInt8 :=
  if written = [] then [0x30] else written

/-- The loop ends, and what it has written fits `buff`. -/
def StaysInBuffer (locale : NumberLocale) (behind value : List UInt8) : Prop :=
  ∃ written, Returns (cleanBody locale behind) ⟨value, []⟩ written ∧
    (numberWritten written).length ≤ sizeofBuff

/-- Up to its first NUL, the value consists of thousands separators and of `n` other things:
decimal points, and bytes with which no separator begins. -/
inductive RemainingBytes (locale : NumberLocale) (behind : List UInt8) : List UInt8 → ℕ → Prop
  | nil : RemainingBytes locale behind [] 0
  | nul (rest : List UInt8) : RemainingBytes locale behind (0 :: rest) 0
  | thousands {value : List UInt8} {n : ℕ} : value.headD 0 ≠ 0 →
      numberSeparatorAt locale.thousandsSep (value ++ behind) →
      RemainingBytes locale behind (value.drop locale.thousandsSep.length) n →
      RemainingBytes locale behind value n
  | point {value : List UInt8} {n : ℕ} : value.headD 0 ≠ 0 →
      ¬ numberSeparatorAt locale.thousandsSep (value ++ behind) →
      numberSeparatorAt locale.decimalPoint (value ++ behind) →
      RemainingBytes locale behind (value.drop locale.decimalPoint.length) n →
      RemainingBytes locale behind value (n + 1)
  | byte {c : UInt8} {rest : List UInt8} {n : ℕ} : c ≠ 0 →
      ¬ numberSeparatorAt locale.thousandsSep (c :: rest ++ behind) →
      ¬ numberSeparatorAt locale.decimalPoint (c :: rest ++ behind) →
      RemainingBytes locale behind rest n → RemainingBytes locale behind (c :: rest) (n + 1)

variable {locale : NumberLocale} {behind value rest : List UInt8} {c : UInt8} {n : ℕ}

/-- A separator that begins with a byte other than NUL is not empty. -/
theorem length_pos_of_numberSeparatorAt {sep text : List UInt8} (hhead : text.headD 0 ≠ 0)
    (h : numberSeparatorAt sep text = true) : 0 < sep.length := by
  cases sep with
  | nil =>
    rw [numberSeparatorAt, Bool.and_eq_true, beq_iff_eq] at h
    exact absurd h.1 hhead
  | cons s sep => exact Nat.succ_pos _

/-- Every round moves on in the value. -/
theorem cleanBody_next {s s' : CleanState} (h : cleanBody locale behind s = .next s') :
    s'.source.length < s.source.length := by
  obtain ⟨source, written⟩ := s
  cases source with
  | nil => simp [cleanBody] at h
  | cons c rest =>
    simp only [cleanBody] at h
    split_ifs at h with hnul hthousands hpoint
    · obtain rfl := Step.next.inj h
      have hpos := length_pos_of_numberSeparatorAt (by simpa using hnul) hthousands
      simp only [List.length_drop, List.length_cons]
      omega
    · obtain rfl := Step.next.inj h
      have hpos := length_pos_of_numberSeparatorAt (by simpa using hnul) hpoint
      simp only [List.length_drop, List.length_cons]
      omega
    · obtain rfl := Step.next.inj h
      exact Nat.lt_succ_self _

/-- The loop ends for every value. -/
theorem cleanBody_terminates (locale : NumberLocale) (behind : List UInt8) (s : CleanState) :
    Terminates (cleanBody locale behind) s := by
  obtain ⟨written, hrun⟩ : ∃ written, run (cleanBody locale behind) (s.source.length + 1) s =
      some written :=
    run_eq_some_of_measure (fun st => st.source.length) (fun _ _ _ hnext => cleanBody_next hnext)
      (Nat.lt_succ_self _)
  exact ⟨written, _, hrun⟩

/-- The loop writes a byte for everything that remains. -/
theorem returns_of_remainingBytes (h : RemainingBytes locale behind value n)
    (written : List UInt8) :
    ∃ out, Returns (cleanBody locale behind) ⟨value, written⟩ out ∧
      out.length = written.length + n := by
  induction h generalizing written with
  | nil => exact ⟨written, returns_of_done rfl, rfl⟩
  | nul rest => exact ⟨written, returns_of_done (by simp [cleanBody]), rfl⟩
  | @thousands value n hnul hsep hrest ih =>
    obtain ⟨out, hreturns, hlen⟩ := ih written
    cases value with
    | nil => exact absurd rfl hnul
    | cons c rest =>
      have hc : c ≠ 0 := hnul
      have hnext : cleanBody locale behind ⟨c :: rest, written⟩ =
          .next ⟨(c :: rest).drop locale.thousandsSep.length, written⟩ := by
        simp only [cleanBody, if_neg hc, if_pos hsep]
      exact ⟨out, (returns_next_iff hnext).mpr hreturns, hlen⟩
  | @point value n hnul hsep hpoint hrest ih =>
    obtain ⟨out, hreturns, hlen⟩ := ih (written ++ [0x2e])
    cases value with
    | nil => exact absurd rfl hnul
    | cons c rest =>
      have hc : c ≠ 0 := hnul
      have hnext : cleanBody locale behind ⟨c :: rest, written⟩ =
          .next ⟨(c :: rest).drop locale.decimalPoint.length, written ++ [0x2e]⟩ := by
        simp only [cleanBody, if_neg hc, if_neg hsep, if_pos hpoint]
      refine ⟨out, (returns_next_iff hnext).mpr hreturns, ?_⟩
      rw [hlen, List.length_append, List.length_singleton]
      omega
  | @byte c rest n hc hsep hpoint hrest ih =>
    obtain ⟨out, hreturns, hlen⟩ := ih (written ++ [c])
    have hnext : cleanBody locale behind ⟨c :: rest, written⟩ =
        .next ⟨rest, written ++ [c]⟩ := by
      simp only [cleanBody, if_neg hc, if_neg hsep, if_neg hpoint]
    refine ⟨out, (returns_next_iff hnext).mpr hreturns, ?_⟩
    rw [hlen, List.length_append, List.length_singleton]
    omega

/-- Every value can be split that way. -/
theorem exists_remainingBytes (locale : NumberLocale) (behind value : List UInt8) :
    ∃ n, RemainingBytes locale behind value n := by
  induction hlen : value.length using Nat.strong_induction_on generalizing value with
  | _ len ih =>
    subst hlen
    cases value with
    | nil => exact ⟨0, .nil⟩
    | cons c rest =>
      by_cases hc : c = 0
      · subst hc
        exact ⟨0, .nul rest⟩
      · by_cases hsep : numberSeparatorAt locale.thousandsSep (c :: rest ++ behind) = true
        · have hpos := length_pos_of_numberSeparatorAt (by simpa using hc) hsep
          obtain ⟨n, hn⟩ := ih _ (by simp only [List.length_drop, List.length_cons]; omega)
            ((c :: rest).drop locale.thousandsSep.length) rfl
          exact ⟨n, .thousands hc hsep hn⟩
        · by_cases hpoint : numberSeparatorAt locale.decimalPoint (c :: rest ++ behind) = true
          · have hpos := length_pos_of_numberSeparatorAt (by simpa using hc) hpoint
            obtain ⟨n, hn⟩ := ih _ (by simp only [List.length_drop, List.length_cons]; omega)
              ((c :: rest).drop locale.decimalPoint.length) rfl
            exact ⟨n + 1, .point hc hsep hpoint hn⟩
          · obtain ⟨n, hn⟩ := ih _ (Nat.lt_succ_self _) rest rfl
            exact ⟨n + 1, .byte hc hsep hpoint hn⟩

/-- The zero that is written for an empty text needs one byte. -/
theorem length_numberWritten (written : List UInt8) :
    (numberWritten written).length = max 1 written.length := by
  unfold numberWritten
  split_ifs with h
  · simp [h]
  · have := List.length_pos_iff.mpr h
    omega

/-- For every locale, every value and every memory behind it the loop ends. It stays in its
buffer exactly if at most 128 bytes remain of the value without thousands separators. -/
theorem staysInBuffer_iff (locale : NumberLocale) (optNoLocale : Bool)
    (behind value : List UInt8) :
    Terminates (cleanBody (locale.separators optNoLocale) behind) ⟨value, []⟩ ∧
      (StaysInBuffer (locale.separators optNoLocale) behind value ↔
        ∃ n ≤ sizeofBuff, RemainingBytes (locale.separators optNoLocale) behind value n) := by
  refine ⟨cleanBody_terminates _ behind _, ?_⟩
  constructor
  · rintro ⟨written, hreturns, hfits⟩
    obtain ⟨n, hn⟩ := exists_remainingBytes (locale.separators optNoLocale) behind value
    obtain ⟨out, hout, hlen⟩ := returns_of_remainingBytes hn []
    obtain rfl := hout.unique hreturns
    rw [length_numberWritten, hlen, List.length_nil] at hfits
    exact ⟨n, by omega, hn⟩
  · rintro ⟨n, hle, hn⟩
    obtain ⟨out, hout, hlen⟩ := returns_of_remainingBytes hn []
    refine ⟨out, hout, ?_⟩
    rw [length_numberWritten, hlen, List.length_nil]
    unfold sizeofBuff at *
    omega

/-- With `,` and `.` what remains is every byte up to the first NUL but the commas. -/
theorem remainingBytes_default (locale : NumberLocale) (behind value : List UInt8) :
    RemainingBytes (locale.separators false) behind value
      ((value.takeWhile (· ≠ 0)).filter (· ≠ 0x2c)).length := by
  induction value with
  | nil => exact .nil
  | cons c rest ih =>
    have hthousands (text : List UInt8) :
        numberSeparatorAt (locale.separators false).thousandsSep (c :: text) = (c == 0x2c) := by
      simp [numberSeparatorAt, NumberLocale.separators, List.isPrefixOf, BEq.comm]
    have hpoint (text : List UInt8) :
        numberSeparatorAt (locale.separators false).decimalPoint (c :: text) = (c == 0x2e) := by
      simp [numberSeparatorAt, NumberLocale.separators, List.isPrefixOf, BEq.comm]
    by_cases hc : c = 0
    · subst hc
      exact .nul rest
    · by_cases hcomma : c = 0x2c
      · subst hcomma
        exact .thousands (by simp) (hthousands _) ih
      · have hkept : (((c :: rest).takeWhile (· ≠ 0)).filter (· ≠ 0x2c)).length =
            ((rest.takeWhile (· ≠ 0)).filter (· ≠ 0x2c)).length + 1 := by
          simp [hc, hcomma]
        rw [hkept]
        by_cases hdot : c = 0x2e
        · subst hdot
          exact .point (by simp) (by simp [hthousands]) (hpoint _) ih
        · exact .byte hc (by simp [hthousands, hcomma]) (by simp [hpoint, hdot]) ih

/-- A text of 129 digits is one byte too long. -/
theorem digits_not_staysInBuffer :
    ¬ StaysInBuffer (NumberLocale.separators ⟨[0x2c], [0x2e], by decide, by decide⟩ false) [0]
      (List.replicate 129 0x31) := by
  rintro ⟨written, hreturns, hfits⟩
  obtain ⟨out, hout, hlen⟩ := returns_of_remainingBytes
    (remainingBytes_default ⟨[0x2c], [0x2e], by decide, by decide⟩ [0] (List.replicate 129 0x31)) []
  obtain rfl := hout.unique hreturns
  have hdigits : (((List.replicate 129 (0x31 : UInt8)).takeWhile (· ≠ 0)).filter
      (· ≠ 0x2c)).length = 129 := by decide +kernel
  rw [length_numberWritten, hlen, hdigits] at hfits
  exact absurd hfits (by decide)

end MatrixOdbc.Driver
