import MatrixOdbc.Driver.Escape
import MatrixOdbc.Driver.OutParams

/-!
# The sizes of ENUM and SET

`proc_parse_enum_set` of `driver/utility.cc` reads the list of members of an `ENUM` or a `SET`.
It knows two kinds of quotes and nothing else: a quote that is written twice ends one run of
characters and begins another one, a backslash is a character like any other, and a quote of
the other kind begins a run inside a run.
-/

namespace MatrixOdbc.Driver

open QuotedText

/-- The variables of `proc_parse_enum_set`. -/
structure EnumScan where
  totalLen : ℕ
  elemNum : ℕ
  maxLen : ℕ
  curLen : ℕ
  quoteSymbol : UInt8

/-- One round of the loop. -/
def EnumScan.step (s : EnumScan) (c : UInt8) : EnumScan :=
  if c = s.quoteSymbol then { s with quoteSymbol := 0, maxLen := max s.curLen s.maxLen }
  else if c = 0x27 ∨ c = 0x22 then { s with quoteSymbol := c, curLen := 0, elemNum := s.elemNum + 1 }
  else if s.quoteSymbol ≠ 0 then { s with curLen := s.curLen + 1, totalLen := s.totalLen + 1 }
  else s

/-- The loop, from the byte `ptype` points to on. There is no byte behind the memory. -/
def scanEnumSet : List UInt8 → ℕ → EnumScan → Option EnumScan
  | _, 0, s => some s
  | [], _ + 1, _ => none
  | c :: mem, len + 1, s =>
    if s.quoteSymbol = 0 ∧ c = 0x29 then some s else scanEnumSet mem len (s.step c)

/-- `proc_parse_enum_set`, where a null pointer points to no byte. The number of a `SET` is
computed without a sign. -/
def procParseEnumSet (ptype : Option (List UInt8)) (len : ℤ) (isEnum : Bool) : Option ℕ :=
  (scanEnumSet (ptype.getD []) len.toNat ⟨0, 0, 0, 0, 0⟩).map fun s =>
    if isEnum then s.maxLen else (s.totalLen + s.elemNum + (2 ^ 32 - 1)) % 2 ^ 32

/-- How the server reads a member between quotes: a quote is written twice or behind a
backslash. -/
def enumDialect (quote : UInt8) : Dialect UInt8 where
  multi _ := 0
  quote := quote
  escape := some 0x5c
  unescape := unescapeByte
  allowed c := c ≠ 0

/-- A member as it is written, with the blanks around it, and its value. -/
structure EnumMember where
  before : List UInt8
  after : List UInt8
  quote : UInt8
  body : List UInt8
  value : List UInt8
  blank : ∀ c ∈ before ++ after, isspaceByte c = true
  quote_eq : quote = 0x27 ∨ quote = 0x22
  reads : Reads (enumDialect quote) (body ++ [quote]) value []

/-- The text of a member. -/
def EnumMember.text (m : EnumMember) : List UInt8 :=
  m.before ++ (m.quote :: (m.body ++ [m.quote]) ++ m.after)

/-- The members with commas between them. -/
def membersText : List EnumMember → List UInt8
  | [] => []
  | m :: ms => m.text ++ ms.flatMap fun m => 0x2c :: m.text

/-- A list of members of which the length, from its bracket on, is passed as an `int`. -/
structure EnumList where
  members : List EnumMember
  length_lt : (membersText members).length + 1 < 2 ^ 31

/-- The text from the bracket that opens to the one that closes, which is not counted. -/
def EnumList.text (l : EnumList) : List UInt8 := 0x28 :: membersText l.members

/-- The lengths of the members. -/
def EnumList.lengths (l : EnumList) : List ℕ := l.members.map fun m => m.value.length

/-- The size as it is meant: the length of the longest member, or of all of them with commas. -/
def EnumList.size (l : EnumList) (isEnum : Bool) : ℕ :=
  if isEnum then l.lengths.foldr max 0 else l.lengths.sum + (l.members.length - 1)

/-- The bytes of the given length are enough, and the size comes out. -/
def EnumList.Measured (l : EnumList) (isEnum : Bool) : Prop :=
  procParseEnumSet (some l.text) l.text.length isEnum = some (l.size isEnum)

/-- No backslash and no quote of the other kind is written in a member. -/
def EnumMember.Unmixed (m : EnumMember) : Prop :=
  ∀ c ∈ m.body, c ≠ 0x5c ∧ (c = 0x27 ∨ c = 0x22 → c = m.quote)

/-- The longest run of characters between quotes, with so many characters in front. -/
def longestRun (quote : UInt8) : ℕ → List UInt8 → ℕ
  | cur, [] => cur
  | cur, c :: value =>
    if c = quote then max cur (longestRun quote 0 value) else longestRun quote (cur + 1) value

/-- What a part of the text does to the scan outside of quotes: so many characters and
separators are counted, and a run of such a length is seen. -/
structure EnumScan.Counts (s s' : EnumScan) (count run : ℕ) : Prop where
  quoteSymbol : s'.quoteSymbol = 0
  total : s'.totalLen + s'.elemNum = s.totalLen + s.elemNum + count
  maxLen : s'.maxLen = max s.maxLen run

variable {q : UInt8} {text value ys : List UInt8} {n : ℕ} {s : EnumScan}

/-- Bytes that mean nothing outside of quotes. -/
theorem scanEnumSet_outside {xs : List UInt8} (hquote : s.quoteSymbol = 0)
    (hxs : ∀ c ∈ xs, c ≠ 0 ∧ c ≠ 0x27 ∧ c ≠ 0x22 ∧ c ≠ 0x29) :
    scanEnumSet (xs ++ ys) (xs.length + n) s = scanEnumSet ys n s := by
  induction xs with
  | nil => rw [List.nil_append, List.length_nil, Nat.zero_add]
  | cons c xs ih =>
    obtain ⟨hzero, hsingle, hdouble, hclose⟩ := hxs c List.mem_cons_self
    have hstep : s.step c = s := by
      rw [EnumScan.step, hquote, if_neg hzero, if_neg (not_or.mpr ⟨hsingle, hdouble⟩),
        if_neg (by simp)]
    rw [List.cons_append, List.length_cons, Nat.add_right_comm, scanEnumSet,
      if_neg (fun h => hclose h.2), hstep]
    exact ih fun c hc => hxs c (List.mem_cons_of_mem _ hc)

/-- A blank means nothing there. -/
theorem blank_outside {c : UInt8} (h : isspaceByte c = true) :
    c ≠ 0 ∧ c ≠ 0x27 ∧ c ≠ 0x22 ∧ c ≠ 0x29 := by
  refine ⟨?_, ?_, ?_, ?_⟩ <;> rintro rfl <;> exact absurd h (by decide)

/-- Inside of quotes the scan does not end. -/
theorem scanEnumSet_inside {c : UInt8} (h : ¬ (s.quoteSymbol = 0 ∧ c = 0x29)) :
    scanEnumSet ((c :: text) ++ ys) ((c :: text).length + n) s =
      scanEnumSet (text ++ ys) (text.length + n) (s.step c) := by
  rw [List.cons_append, List.length_cons, Nat.add_right_comm, scanEnumSet, if_neg h]

/-- The rest of a member behind its opening quote. -/
theorem scanEnumSet_reads (hq : q = 0x27 ∨ q = 0x22) (hreads : Reads (enumDialect q) text value [])
    (hunmixed : ∀ c ∈ text, c ≠ 0x5c ∧ (c = 0x27 ∨ c = 0x22 → c = q)) (hquote : s.quoteSymbol = q) :
    ∃ s', scanEnumSet (text ++ ys) (text.length + n) s = scanEnumSet ys n s' ∧
      s.Counts s' value.length (longestRun q s.curLen value) := by
  have hne : q ≠ 0 ∧ q ≠ 0x29 := by
    obtain rfl | rfl := hq <;> decide
  have hcloses {s : EnumScan} (h : s.quoteSymbol = q) :
      s.step q = { s with quoteSymbol := 0, maxLen := max s.curLen s.maxLen } := by
    rw [EnumScan.step, if_pos h.symm]
  have hopen {s : EnumScan} {c : UInt8} (h : s.quoteSymbol = q) :
      ¬ (s.quoteSymbol = 0 ∧ c = 0x29) := fun hand => hne.1 (h.symm.trans hand.1)
  generalize hrest : ([] : List UInt8) = rest at hreads
  induction hreads generalizing s with
  | close =>
    subst hrest
    refine ⟨_, by rw [scanEnumSet_inside (hopen hquote), List.nil_append, List.length_nil,
      Nat.zero_add], ?_⟩
    rw [show (enumDialect q).quote = q from rfl, hcloses hquote]
    exact ⟨rfl, rfl, max_comm _ _⟩
  | multi h => exact absurd rfl h
  | @pair text value rest _ _ ih =>
    -- the first quote ends a run and the second one begins another
    have hsecond : (s.step q).step q =
        ⟨s.totalLen, s.elemNum + 1, max s.curLen s.maxLen, 0, q⟩ := by
      rw [hcloses hquote, EnumScan.step, if_neg hne.1, if_pos hq]
    have hfirst : ¬ ((s.step q).quoteSymbol = 0 ∧ q = 0x29) := fun hand => hne.2 hand.2
    obtain ⟨s', hscan, hcounts⟩ := @ih ((s.step q).step q)
      (fun c hc => hunmixed c (List.mem_cons_of_mem _ (List.mem_cons_of_mem _ hc)))
      (by rw [hsecond]) hrest
    refine ⟨s', ?_, hcounts.quoteSymbol, ?_, ?_⟩
    · rw [show (enumDialect q).quote = q from rfl, scanEnumSet_inside (hopen hquote),
        scanEnumSet_inside hfirst, hscan]
    · have htotal := hcounts.total
      rw [hsecond] at htotal
      rw [List.length_cons]
      dsimp only at htotal
      omega
    · have hrun : longestRun q s.curLen (q :: value) = max s.curLen (longestRun q 0 value) := by
        rw [longestRun, if_pos rfl]
      rw [hcounts.maxLen, hsecond, show (enumDialect q).quote = q from rfl, hrun]
      dsimp only
      omega
  | @escaped e c text value rest hescape =>
    obtain rfl : 0x5c = e := Option.some.inj hescape
    exact absurd rfl (hunmixed 0x5c List.mem_cons_self).1
  | @plain c text value rest _ hplain _ _ _ ih =>
    have hother : ¬ (c = 0x27 ∨ c = 0x22) :=
      fun h => hplain ((hunmixed c List.mem_cons_self).2 h)
    have hstep : s.step c = ⟨s.totalLen + 1, s.elemNum, s.maxLen, s.curLen + 1, s.quoteSymbol⟩ := by
      have hc : c ≠ s.quoteSymbol := fun h => hplain (h.trans hquote)
      rw [EnumScan.step, if_neg hc, if_neg hother, if_pos (by rw [hquote]; exact hne.1)]
    obtain ⟨s', hscan, hcounts⟩ := @ih (s.step c)
      (fun d hd => hunmixed d (List.mem_cons_of_mem _ hd)) (by rw [hstep, hquote]) hrest
    refine ⟨s', by rw [scanEnumSet_inside (hopen hquote), hscan], hcounts.quoteSymbol, ?_, ?_⟩
    · have htotal := hcounts.total
      rw [hstep] at htotal
      rw [List.length_cons]
      dsimp only at htotal
      omega
    · have hrun : longestRun q s.curLen (c :: value) = longestRun q (s.curLen + 1) value := by
        rw [longestRun, if_neg (by exact hplain)]
      rw [hcounts.maxLen, hstep, hrun]

/-- The text of a member, with the blanks around it. -/
theorem scanEnumSet_member {m : EnumMember} (hunmixed : m.Unmixed) (hquote : s.quoteSymbol = 0) :
    ∃ s', scanEnumSet (m.text ++ ys) (m.text.length + n) s = scanEnumSet ys n s' ∧
      s.Counts s' (m.value.length + 1) (longestRun m.quote 0 m.value) := by
  have hne : m.quote ≠ 0 ∧ m.quote ≠ 0x29 := by
    obtain h | h := m.quote_eq <;> rw [h] <;> decide
  have hopens : s.step m.quote = ⟨s.totalLen, s.elemNum + 1, s.maxLen, 0, m.quote⟩ := by
    rw [EnumScan.step, hquote, if_neg hne.1, if_pos m.quote_eq]
  have hbody : ∀ c ∈ m.body ++ [m.quote], c ≠ 0x5c ∧ (c = 0x27 ∨ c = 0x22 → c = m.quote) := by
    intro c hc
    obtain hc | hc := List.mem_append.mp hc
    · exact hunmixed c hc
    · obtain rfl := List.mem_singleton.mp hc
      refine ⟨?_, fun _ => rfl⟩
      obtain h | h := m.quote_eq <;> rw [h] <;> decide
  obtain ⟨s', hscan, hcounts⟩ := @scanEnumSet_reads m.quote (m.body ++ [m.quote]) m.value
    (m.after ++ ys) (m.after.length + n) (s.step m.quote) m.quote_eq m.reads hbody (by rw [hopens])
  have htext : m.text ++ ys = m.before ++ ((m.quote :: (m.body ++ [m.quote])) ++ (m.after ++ ys)) := by
    rw [EnumMember.text, List.append_assoc, List.append_assoc]
  have hlength : m.text.length + n =
      m.before.length + ((m.quote :: (m.body ++ [m.quote])).length + (m.after.length + n)) := by
    rw [EnumMember.text, List.length_append, List.length_append]
    omega
  refine ⟨s', ?_, hcounts.quoteSymbol, ?_, ?_⟩
  · have hbefore : ∀ c ∈ m.before, isspaceByte c = true :=
      fun c hc => m.blank c (List.mem_append_left _ hc)
    have hafter : ∀ c ∈ m.after, isspaceByte c = true :=
      fun c hc => m.blank c (List.mem_append_right _ hc)
    rw [htext, hlength, scanEnumSet_outside hquote fun c hc => blank_outside (hbefore c hc),
      scanEnumSet_inside fun h => hne.2 h.2, hscan,
      scanEnumSet_outside hcounts.quoteSymbol fun c hc => blank_outside (hafter c hc)]
  · have htotal := hcounts.total
    rw [hopens] at htotal
    dsimp only at htotal
    omega
  · rw [hcounts.maxLen, hopens]

/-- Counting one part after the other. -/
theorem EnumScan.Counts.trans {s₁ s₂ s₃ : EnumScan} {count count' run run' : ℕ}
    (h : s₁.Counts s₂ count run) (h' : s₂.Counts s₃ count' run') :
    s₁.Counts s₃ (count + count') (max run run') := by
  refine ⟨h'.quoteSymbol, ?_, ?_⟩
  · rw [h'.total, h.total, Nat.add_assoc]
  · rw [h'.maxLen, h.maxLen, max_assoc]

/-- The members behind the first one. -/
theorem scanEnumSet_members {ms : List EnumMember} (hunmixed : ∀ m ∈ ms, m.Unmixed)
    (hquote : s.quoteSymbol = 0) :
    ∃ s', scanEnumSet (ms.flatMap (fun m => 0x2c :: m.text) ++ ys)
        ((ms.flatMap fun m => 0x2c :: m.text).length + n) s = scanEnumSet ys n s' ∧
      s.Counts s' (ms.map fun m => m.value.length + 1).sum
        ((ms.map fun m => longestRun m.quote 0 m.value).foldr max 0) := by
  induction ms generalizing s with
  | nil =>
    refine ⟨s, by simp, hquote, by simp, by simp⟩
  | cons m ms ih =>
    obtain ⟨s₁, hscan₁, hcounts₁⟩ := @scanEnumSet_member
      ((ms.flatMap fun m => 0x2c :: m.text) ++ ys) ((ms.flatMap fun m => 0x2c :: m.text).length + n)
      s m (hunmixed m List.mem_cons_self) hquote
    obtain ⟨s₂, hscan₂, hcounts₂⟩ := ih (fun m' hm' => hunmixed m' (List.mem_cons_of_mem _ hm'))
      hcounts₁.quoteSymbol
    have hcomma : ∀ c ∈ [(0x2c : UInt8)], c ≠ 0 ∧ c ≠ 0x27 ∧ c ≠ 0x22 ∧ c ≠ 0x29 := by simp
    refine ⟨s₂, ?_, hcounts₁.trans hcounts₂⟩
    have hskip := @scanEnumSet_outside (m.text ++ (ms.flatMap (fun m => 0x2c :: m.text) ++ ys))
      (m.text.length + ((ms.flatMap fun m => 0x2c :: m.text).length + n)) s _ hquote hcomma
    rw [hscan₁, hscan₂] at hskip
    rw [← hskip]
    congr 1
    · simp
    · simp only [List.flatMap_cons, List.length_append, List.length_cons, List.length_nil]
      omega

/-- The whole list. -/
theorem scanEnumSet_list {l : EnumList} (hunmixed : ∀ m ∈ l.members, m.Unmixed) :
    ∃ s', scanEnumSet l.text l.text.length ⟨0, 0, 0, 0, 0⟩ = some s' ∧
      s'.totalLen + s'.elemNum = (l.members.map fun m => m.value.length + 1).sum ∧
      s'.maxLen = (l.members.map fun m => longestRun m.quote 0 m.value).foldr max 0 := by
  have hbracket : ∀ c ∈ [(0x28 : UInt8)], c ≠ 0 ∧ c ≠ 0x27 ∧ c ≠ 0x22 ∧ c ≠ 0x29 := by simp
  have hstart : scanEnumSet l.text l.text.length ⟨0, 0, 0, 0, 0⟩ =
      scanEnumSet (membersText l.members) (membersText l.members).length ⟨0, 0, 0, 0, 0⟩ := by
    have hskip := @scanEnumSet_outside (membersText l.members) (membersText l.members).length
      ⟨0, 0, 0, 0, 0⟩ _ rfl hbracket
    rw [← hskip]
    congr 1
    rw [EnumList.text, List.length_cons, List.length_singleton]
    omega
  rw [hstart]
  cases hmembers : l.members with
  | nil => exact ⟨_, rfl, rfl, rfl⟩
  | cons m ms =>
    rw [hmembers] at hunmixed
    obtain ⟨s₁, hscan₁, hcounts₁⟩ := @scanEnumSet_member (ms.flatMap fun m => 0x2c :: m.text)
      (ms.flatMap fun m => 0x2c :: m.text).length ⟨0, 0, 0, 0, 0⟩ m
      (hunmixed m List.mem_cons_self) rfl
    obtain ⟨s₂, hscan₂, hcounts₂⟩ := @scanEnumSet_members [] 0 s₁ ms
      (fun m' hm' => hunmixed m' (List.mem_cons_of_mem _ hm')) hcounts₁.quoteSymbol
    have hcounts := hcounts₁.trans hcounts₂
    rw [List.append_nil, Nat.add_zero] at hscan₂
    refine ⟨s₂, ?_, ?_, ?_⟩
    · rw [membersText, List.length_append, hscan₁, hscan₂, scanEnumSet]
    · simpa using hcounts.total
    · simpa using hcounts.maxLen

/-- A bound of the largest of some numbers. -/
theorem foldr_max_le_iff {l : List ℕ} : l.foldr max 0 ≤ n ↔ ∀ x ∈ l, x ≤ n := by
  induction l with
  | nil => simp
  | cons x l ih => simp [ih]

/-- The largest of some numbers is one of them. -/
theorem foldr_max_mem {l : List ℕ} (h : l ≠ []) : l.foldr max 0 ∈ l := by
  induction l with
  | nil => exact absurd rfl h
  | cons x l ih =>
    rw [List.foldr_cons]
    rcases Nat.le_total (l.foldr max 0) x with hle | hle
    · rw [max_eq_left hle]
      exact List.mem_cons_self
    · rw [max_eq_right hle]
      rcases eq_or_ne l [] with rfl | hne
      · rw [List.foldr_nil] at hle ⊢
        rw [Nat.le_zero.mp hle]
        exact List.mem_cons_self
      · exact List.mem_cons_of_mem _ (ih hne)

/-- A value without a quote is one run. -/
theorem longestRun_of_not_mem {cur : ℕ} (h : q ∉ value) :
    longestRun q cur value = cur + value.length := by
  induction value generalizing cur with
  | nil => rfl
  | cons c value ih =>
    rw [List.mem_cons, not_or] at h
    rw [longestRun, if_neg (Ne.symm h.1), ih h.2, List.length_cons]
    omega

/-- No run is longer than the value. -/
theorem longestRun_le {cur : ℕ} : longestRun q cur value ≤ cur + value.length := by
  induction value generalizing cur with
  | nil => exact Nat.le_refl _
  | cons c value ih =>
    have hnew := @ih 0
    have hlonger := @ih (cur + 1)
    rw [longestRun, List.length_cons]
    split_ifs <;> omega

/-- With a quote in it every run is shorter than the value. -/
theorem longestRun_lt {cur : ℕ} (h : q ∈ value) : longestRun q cur value < cur + value.length := by
  induction value generalizing cur with
  | nil => exact absurd h List.not_mem_nil
  | cons c value ih =>
    rw [longestRun, List.length_cons]
    split_ifs with hc
    · have hnew := @longestRun_le q value 0
      omega
    · have hlonger := @ih (cur + 1) ((List.mem_cons.mp h).resolve_left (Ne.symm hc))
      omega

/-- The longest run is as long as the longest member exactly if one of the longest members has
no quote in it. -/
theorem longestRuns_eq_iff {ms : List EnumMember} :
    (ms.map fun m => longestRun m.quote 0 m.value).foldr max 0 =
        (ms.map fun m => m.value.length).foldr max 0 ↔
      ms = [] ∨ ∃ m ∈ ms, m.quote ∉ m.value ∧ ∀ m' ∈ ms, m'.value.length ≤ m.value.length := by
  have hlength : ∀ m' ∈ ms,
      m'.value.length ≤ (ms.map fun m => m.value.length).foldr max 0 := fun m' hm' =>
    foldr_max_le_iff.mp (Nat.le_refl _) _ (List.mem_map_of_mem (f := fun m => m.value.length) hm')
  constructor
  · intro h
    rcases eq_or_ne ms [] with rfl | hne
    · exact Or.inl rfl
    · obtain ⟨m, hm, hrun⟩ := List.mem_map.mp
        (foldr_max_mem (l := ms.map fun m => longestRun m.quote 0 m.value) (by simpa using hne))
      rw [h] at hrun
      have hle := hlength m hm
      refine Or.inr ⟨m, hm, fun hquote => ?_, fun m' hm' => ?_⟩
      · have hlt := @longestRun_lt _ _ 0 hquote
        omega
      · have hbound := @longestRun_le m.quote m.value 0
        have hother := hlength m' hm'
        omega
  · rintro (rfl | ⟨m, hm, hquote, hlongest⟩)
    · rfl
    · apply Nat.le_antisymm
      · rw [foldr_max_le_iff, List.forall_mem_map]
        intro m' hm'
        have hle := @longestRun_le m'.quote m'.value 0
        exact (by omega : longestRun m'.quote 0 m'.value ≤ m'.value.length).trans (hlength m' hm')
      · rw [foldr_max_le_iff, List.forall_mem_map]
        intro m' hm'
        have hrun := @longestRun_of_not_mem _ _ 0 hquote
        have hmem := foldr_max_le_iff.mp (Nat.le_refl _) _
          (List.mem_map_of_mem (f := fun m => longestRun m.quote 0 m.value) hm)
        have hle := hlongest m' hm'
        omega

/-- A value is not longer than what is written for it. -/
theorem EnumMember.length_value_lt (m : EnumMember) : m.value.length + 1 ≤ m.text.length := by
  have hunescape : ∀ c, ((enumDialect m.quote).unescape c).length ≤ 2 := by
    intro c
    show (unescapeByte c).length ≤ 2
    unfold unescapeByte
    split_ifs <;> simp
  have hlt := m.reads.length_lt hunescape
  simp only [List.length_append, List.length_singleton, List.length_nil] at hlt
  simp only [EnumMember.text, List.length_append, List.length_cons]
  omega

/-- The lengths that are added up fit in the text. -/
theorem sum_lengths_le (ms : List EnumMember) :
    (ms.map fun m => m.value.length + 1).sum ≤ (membersText ms).length := by
  have hrest (ms : List EnumMember) : (ms.map fun m => m.value.length + 1).sum ≤
      (ms.flatMap fun m => 0x2c :: m.text).length := by
    induction ms with
    | nil => simp
    | cons m ms ih =>
      have hm := m.length_value_lt
      simp only [List.map_cons, List.sum_cons, List.flatMap_cons, List.length_append,
        List.length_cons]
      omega
  cases ms with
  | nil => simp
  | cons m ms =>
    have hm := m.length_value_lt
    have hms := hrest ms
    simp only [membersText, List.map_cons, List.sum_cons, List.length_append]
    omega

/-- The sum with a separator for each member. -/
theorem sum_lengths_eq (ms : List EnumMember) :
    (ms.map fun m => m.value.length + 1).sum =
      (ms.map fun m => m.value.length).sum + ms.length := by
  induction ms with
  | nil => rfl
  | cons m ms ih =>
    simp only [List.map_cons, List.sum_cons, List.length_cons, ih]
    omega

/-- Among lists that are written with no backslash and no quote of the other kind in a member,
the size of an `ENUM` comes out exactly if one of the longest members has no quote in it, and
the one of a `SET` exactly if there is a member. -/
theorem enumList_measured_iff (l : EnumList) (isEnum : Bool)
    (hunmixed : ∀ m ∈ l.members, m.Unmixed) :
    l.Measured isEnum ↔
      (isEnum = true → l.members = [] ∨ ∃ m ∈ l.members, m.quote ∉ m.value ∧
        ∀ m' ∈ l.members, m'.value.length ≤ m.value.length) ∧
      (isEnum = false → l.members ≠ []) := by
  obtain ⟨s, hscan, htotal, hmax⟩ := scanEnumSet_list hunmixed
  have hle := sum_lengths_le l.members
  have hlt := l.length_lt
  have hsum := sum_lengths_eq l.members
  rw [EnumList.Measured, procParseEnumSet, Int.toNat_natCast, Option.getD_some, hscan,
    Option.map_some, Option.some_inj]
  cases isEnum with
  | true =>
    rw [if_pos rfl, EnumList.size, if_pos rfl, hmax, EnumList.lengths, longestRuns_eq_iff]
    simp
  | false =>
    rw [if_neg Bool.false_ne_true, EnumList.size, if_neg Bool.false_ne_true, htotal,
      EnumList.lengths]
    rcases Nat.eq_zero_or_pos l.members.length with hnone | hsome
    · rw [List.eq_nil_of_length_eq_zero hnone]
      simp
    · have hne : l.members ≠ [] := List.ne_nil_of_length_pos hsome
      simp only [hne, Bool.false_eq_true, false_implies, true_and, ne_eq, not_false_eq_true,
        implies_true, iff_true]
      omega

/-- A character that is no quote and no backslash. -/
theorem reads_character {c : UInt8} (hquote : c ≠ q) (hbackslash : c ≠ 0x5c) (hzero : c ≠ 0)
    (h : Reads (enumDialect q) text value []) :
    Reads (enumDialect q) (c :: text) (c :: value) [] :=
  .plain rfl hquote (fun hc => hbackslash (Option.some.inj hc).symm) hzero h

/-- Of the members `'ab'` and `'c'` the first one is the longest. -/
theorem enumList_measured_two : ∃ l : EnumList,
    l.text = [0x28, 0x27, 0x61, 0x62, 0x27, 0x2c, 0x27, 0x63, 0x27] ∧
      (∀ m ∈ l.members, m.Unmixed) ∧ l.Measured true := by
  have hc : Reads (enumDialect 0x27) ([0x63] ++ [0x27]) [0x63] [] :=
    reads_character (by decide) (by decide) (by decide) (.close rfl (by decide))
  have hab : Reads (enumDialect 0x27) ([0x61, 0x62] ++ [0x27]) [0x61, 0x62] [] :=
    reads_character (by decide) (by decide) (by decide)
      (reads_character (by decide) (by decide) (by decide) (.close rfl (by decide)))
  have hlength : (9 : ℕ) < 2 ^ 31 := by decide
  refine ⟨⟨[⟨[], [], 0x27, [0x61, 0x62], [0x61, 0x62], by simp, Or.inl rfl, hab⟩,
    ⟨[], [], 0x27, [0x63], [0x63], by simp, Or.inl rfl, hc⟩], hlength⟩, rfl, ?_, ?_⟩
  · simp [EnumMember.Unmixed]
  · refine (enumList_measured_iff _ true ?_).mpr ⟨fun _ => Or.inr ?_, fun h => ?_⟩
    · simp [EnumMember.Unmixed]
    · simp
    · exact absurd h (by decide)

/-- The member `'a''b'` is taken for two, an empty `SET` has the size of the largest number, and the
backslash of `'a\'b'` is counted, but not what is behind it. -/
theorem enumSizes_failures :
    (∃ l : EnumList, l.text = [0x28, 0x27, 0x61, 0x27, 0x27, 0x62, 0x27] ∧
      l.lengths = [3] ∧ ¬ l.Measured true) ∧
    (∃ l : EnumList, l.text = [0x28] ∧ l.members = [] ∧ ¬ l.Measured false) ∧
    ∃ l : EnumList, l.text = [0x28, 0x27, 0x61, 0x5c, 0x27, 0x62, 0x27] ∧
      l.lengths = [3] ∧ ¬ l.Measured true := by
  have hb : Reads (enumDialect 0x27) ([0x62] ++ [0x27]) [0x62] [] :=
    reads_character (by decide) (by decide) (by decide) (.close rfl (by decide))
  have hdoubled : Reads (enumDialect 0x27) ([0x61, 0x27, 0x27, 0x62] ++ [0x27])
      [0x61, 0x27, 0x62] [] :=
    reads_character (by decide) (by decide) (by decide) (.pair rfl hb)
  have hescaped : Reads (enumDialect 0x27) ([0x61, 0x5c, 0x27, 0x62] ++ [0x27])
      [0x61, 0x27, 0x62] [] :=
    reads_character (by decide) (by decide) (by decide) (.escaped rfl (by decide) rfl hb)
  have hlength : (7 : ℕ) < 2 ^ 31 ∧ (1 : ℕ) < 2 ^ 31 := by decide
  have hone : procParseEnumSet (some [0x28, 0x27, 0x61, 0x27, 0x27, 0x62, 0x27]) (7 : ℕ) true ≠
      some 3 := by decide
  have hnone : procParseEnumSet (some [0x28]) (1 : ℕ) false ≠ some 0 := by decide
  have htwo : procParseEnumSet (some [0x28, 0x27, 0x61, 0x5c, 0x27, 0x62, 0x27]) (7 : ℕ) true ≠
      some 3 := by decide
  exact ⟨⟨⟨[⟨[], [], 0x27, _, _, by simp, Or.inl rfl, hdoubled⟩], hlength.1⟩, rfl, rfl, hone⟩,
    ⟨⟨[], hlength.2⟩, rfl, rfl, hnone⟩,
    ⟨⟨[⟨[], [], 0x27, _, _, by simp, Or.inl rfl, hescaped⟩], hlength.1⟩, rfl, rfl, htwo⟩⟩

end MatrixOdbc.Driver
