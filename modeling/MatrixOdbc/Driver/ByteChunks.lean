import MatrixOdbc.Driver.ByteResult

/-!
# Byte data in chunks

The two copy functions deliver a value correctly from any resume position, as
long as every call passes them the same value at the same address. `SQLGetData`
does so for the values of the row. A padded value is cut to the buffer of the
call before it is measured, and a converted value is where the call happens to
have its local array.
-/

namespace MatrixOdbc.Driver

open Util

variable {opts : StmtOptions} {memory : ℕ → UInt8} {source : Option ℕ} {target rest : List UInt8}
  {col : ByteColumn} {fCType : ByteTarget} {n k pos addr : ℕ}

/-- The number of data bytes for which a buffer has room. -/
def capacity : ByteTarget → ℕ → ℕ
  | .SQL_C_BINARY, n => n
  | .SQL_C_CHAR, n => n - 1

/-- The smallest buffer an application uses. -/
def minBuffer : ByteTarget → ℕ
  | .SQL_C_BINARY => 0
  | .SQL_C_CHAR => 1

/-- What is written behind the data. -/
def terminator : ByteTarget → List UInt8
  | .SQL_C_BINARY => []
  | .SQL_C_CHAR => [0]

/-- The call delivers the next chunk of the bytes that remain. -/
structure DeliversBytes (fCType : ByteTarget) (rest target : List UInt8) (out : ByteOutcome) :
    Prop where
  result_eq : out.result =
    Buffer.store target 0 (rest.take (capacity fCType target.length) ++ terminator fCType)
  fits : (rest.take (capacity fCType target.length) ++ terminator fCType).length ≤ target.length
  availBytes_eq : out.availBytes = some rest.length
  rc_eq : out.rc = if capacity fCType target.length < rest.length then
    .SQL_SUCCESS_WITH_INFO else .SQL_SUCCESS

/-- What a sequence of calls delivers of the bytes that remain. The first call
always delivers, an empty value included; the call after the last chunk returns
`SQL_NO_DATA`. -/
def DeliversAllBytes (fCType : ByteTarget) (isFirst : Bool) (rest : List UInt8) :
    List (List UInt8) → List ByteOutcome → Prop
  | [], [] => True
  | target :: targets, out :: outs =>
    if isFirst = false ∧ rest = [] then
      (out.rc = .SQL_NO_DATA_FOUND ∧ out.result = target ∧ out.availBytes = none) ∧
        DeliversAllBytes fCType false rest targets outs
    else
      DeliversBytes fCType rest target out ∧
        DeliversAllBytes fCType false (rest.drop (capacity fCType target.length)) targets outs
  | _, _ => False

/-- The resume position is `pos` bytes behind `addr`, or not set at the start. -/
def ResumesAt (source : Option ℕ) (addr pos : ℕ) : Prop :=
  source = none ∧ pos = 0 ∨ source = some (addr + pos)

theorem ulongSub_of_le {a b : ℕ} (hle : b ≤ a) (h : a < b + ulongSize) : ulongSub a b = a - b := by
  unfold ulongSub ulongSize at *
  omega

/-- The number of bytes to which a value is limited. -/
theorem length_limitLength (bytes : List UInt8) :
    (if opts.maxLength ≠ 0 ∧ opts.maxLength < bytes.length then opts.maxLength
      else bytes.length) = (limitLength opts bytes).length := by
  unfold limitLength
  split_ifs with hmax hlimit hlimit
  · rw [List.length_take]
    omega
  · exact absurd hmax.1 hlimit
  · rw [List.length_take]
    omega
  · rfl

/-- The outcome of a call that copies `n` of the remaining bytes at most. -/
def copied (rest target : List UInt8) (n addr : ℕ) : ByteOutcome where
  rc := if n < rest.length then .SQL_SUCCESS_WITH_INFO else .SQL_SUCCESS
  result := Buffer.store target 0 (rest.take n)
  availBytes := some rest.length
  source := some (addr + min n rest.length)

theorem limitLength_isPrefixOf (opts : StmtOptions) (bytes : List UInt8) :
    limitLength opts bytes <+: bytes := by
  unfold limitLength
  split_ifs
  · exact List.take_prefix _ _
  · exact List.prefix_rfl

/-- Bytes behind the resume position are read from memory. -/
theorem read_limited (memory : ℕ → UInt8) (addr : ℕ) (opts : StmtOptions) (bytes : List UInt8)
    (hpos : pos ≤ (limitLength opts bytes).length) (n : ℕ) :
    Memory.read (Memory.write memory addr bytes) (addr + pos)
        (min n ((limitLength opts bytes).drop pos).length) =
      ((limitLength opts bytes).drop pos).take n := by
  have hprefix := limitLength_isPrefixOf opts bytes
  have hle := hprefix.length_le
  have htake : limitLength opts bytes = bytes.take (limitLength opts bytes).length :=
    List.prefix_iff_eq_take.mp hprefix
  generalize (limitLength opts bytes).length = len at *
  have hlen : ((bytes.take len).drop pos).length = len - pos := by
    rw [List.length_drop, List.length_take, Nat.min_eq_left hle]
  rw [htake, hlen, Memory.read_write _ _ _ (by omega), List.drop_take, List.take_take]

variable (memory target) in
/-- `copy_binary_result` copies the bytes behind the resume position. -/
theorem copyBinaryResult_eq {bytes : List UInt8} (hretrieve : opts.retrieveData = true)
    (hresume : ResumesAt source addr pos) (hpos : pos ≤ (limitLength opts bytes).length)
    (hlen : (limitLength opts bytes).length < ulongSize) (n : ℕ) :
    copyBinaryResult opts (Memory.write memory addr bytes) source target n addr bytes.length =
      if source.isSome ∧ (limitLength opts bytes).drop pos = [] then
        ⟨.SQL_NO_DATA_FOUND, target, none, source⟩
      else copied ((limitLength opts bytes).drop pos) target n (addr + pos) := by
  have hread := read_limited memory addr opts bytes hpos n
  have hrest : ((limitLength opts bytes).drop pos).length =
      (limitLength opts bytes).length - pos := List.length_drop
  have hcopied : (if n ≠ 0 ∧ opts.retrieveData = true then
      Buffer.store target 0 (Memory.read (Memory.write memory addr bytes) (addr + pos)
        (min n ((limitLength opts bytes).drop pos).length)) else target) =
      Buffer.store target 0 (((limitLength opts bytes).drop pos).take n) := by
    rw [hread, hretrieve]
    by_cases hn : n = 0
    · simp [hn]
    · simp [hn]
  have hempty : (limitLength opts bytes).drop pos = [] ↔
      (limitLength opts bytes).length - pos = 0 := by
    rw [← hrest, List.length_eq_zero_iff]
  unfold copyBinaryResult
  simp only [length_limitLength]
  rcases hresume with ⟨rfl, rfl⟩ | rfl
  · simp only [List.drop_zero, Nat.add_zero, Option.isSome_none, Bool.false_eq_true, false_and,
      if_false] at hcopied ⊢
    simp only [copied, hretrieve, if_true] at hcopied ⊢
    rw [hcopied]
  · have hdiff : ulongSub (addr + pos) addr = pos := by
      rw [ulongSub_of_le (by omega) (by omega)]
      omega
    simp only [hdiff, ulongSub_of_le hpos (by omega), hempty, Option.isSome_some, true_and]
    by_cases hdone : (limitLength opts bytes).length - pos = 0
    · rw [if_pos hdone, if_pos hdone]
    · rw [if_neg hdone, if_neg hdone, ← hrest]
      simp only [copied, hretrieve, if_true] at hcopied ⊢
      rw [hcopied]

/-- A terminator directly behind the data in a buffer. -/
theorem set_store {xs : List UInt8} (h : xs.length < target.length) :
    (Buffer.store target 0 xs).set xs.length 0 = Buffer.store target 0 (xs ++ [0]) := by
  rw [Buffer.store_zero, Buffer.store_zero, List.set_append_right _ _ le_rfl, Nat.sub_self,
    List.drop_eq_getElem_cons h, List.set_cons_zero, List.length_append, List.append_assoc]
  rfl

variable (memory target) in
/-- `copy_ansi_result` copies the same bytes and terminates them. -/
theorem copyAnsiResult_eq {bytes : List UInt8} (hretrieve : opts.retrieveData = true)
    (hresume : ResumesAt source addr pos) (hpos : pos ≤ (limitLength opts bytes).length)
    (hlen : (limitLength opts bytes).length < ulongSize) (htarget : 1 ≤ target.length) :
    copyAnsiResult opts (Memory.write memory addr bytes) source target target.length addr
        bytes.length =
      if source.isSome ∧ (limitLength opts bytes).drop pos = [] then
        ⟨.SQL_NO_DATA_FOUND, target, none, source⟩
      else
        { copied ((limitLength opts bytes).drop pos) target (target.length - 1) (addr + pos) with
          result := Buffer.store target 0
            (((limitLength opts bytes).drop pos).take (target.length - 1) ++ [0]) } := by
  have hne : target.length ≠ 0 := by omega
  rw [copyAnsiResult, if_neg (fun h => hne h.1), copyBinaryResult_eq _ _ hretrieve hresume hpos hlen]
  generalize (limitLength opts bytes).drop pos = rest
  split_ifs with hdone
  · simp [sqlSucceeded]
  · have hrc : sqlSucceeded (copied rest target (target.length - 1) (addr + pos)).rc := by
      unfold sqlSucceeded copied
      dsimp only
      split_ifs
      · exact Or.inr rfl
      · exact Or.inl rfl
    have hchunk : (rest.take (target.length - 1)).length = min rest.length (target.length - 1) := by
      rw [List.length_take, Nat.min_comm]
    have hset : (Buffer.store target 0 (rest.take (target.length - 1))).set
        (rest.take (target.length - 1)).length 0 =
        Buffer.store target 0 (rest.take (target.length - 1) ++ [0]) := set_store (by omega)
    rw [hchunk] at hset
    simp only [hrc, hne, hretrieve, ne_eq, not_false_eq_true, and_self, if_true]
    simp only [copied, Option.getD_some, hset]

/-- The value of the column, as the settings of the connection make it. -/
def ByteColumn.text (col : ByteColumn) (fCType : ByteTarget) : List UInt8 :=
  match col.converted fCType with
  | some text => text
  | none => if col.padded then resize col.value.bytes col.octetLength else col.value.bytes

/-- The address at which a call hands the value over. -/
def ByteColumn.place (col : ByteColumn) (fCType : ByteTarget) (frame : CallFrame) : ℕ :=
  if (col.converted fCType).isSome then frame.buff
  else if col.padded then frame.tempStr
  else col.value.addr

/-- The value is handed over in the padded form, cut to the buffer of the call. -/
def ByteColumn.cut (col : ByteColumn) (fCType : ByteTarget) : Prop :=
  col.padded = true ∧ col.converted fCType = none

/-- The value that a call with a buffer of `n` bytes hands over. -/
def handedOver (col : ByteColumn) (fCType : ByteTarget) (frame : CallFrame) (n : ℕ) : Located :=
  convertValue col fCType frame (fixPadding col frame n)

theorem resize_take (bytes : List UInt8) (o n : ℕ) :
    (resize bytes o).take n = resize bytes (if o < n then o else n) := by
  have hmin : (if o < n then o else n) = min n o := by
    split_ifs <;> omega
  rw [hmin, resize, resize, List.take_append, List.take_take, List.take_replicate,
    List.length_take]
  congr 2
  omega

theorem handedOver_addr (col : ByteColumn) (fCType : ByteTarget) (frame : CallFrame) (n : ℕ) :
    (handedOver col fCType frame n).addr = col.place fCType frame := by
  unfold handedOver convertValue ByteColumn.place
  cases hconverted : col.converted fCType with
  | some text => simp
  | none =>
    unfold fixPadding
    simp only [Option.isSome_none, Bool.false_eq_true, if_false]
    split_ifs <;> rfl

theorem handedOver_bytes (col : ByteColumn) (fCType : ByteTarget) (frame : CallFrame) (n : ℕ) :
    (col.cut fCType ∧ (handedOver col fCType frame n).bytes = (col.text fCType).take n) ∨
      (¬ col.cut fCType ∧ (handedOver col fCType frame n).bytes = col.text fCType) := by
  unfold handedOver convertValue ByteColumn.text ByteColumn.cut
  cases hconverted : col.converted fCType with
  | some text => exact Or.inr ⟨by simp, rfl⟩
  | none =>
    unfold fixPadding
    by_cases hpadded : col.padded = true
    · refine Or.inl ⟨⟨hpadded, rfl⟩, ?_⟩
      simp only [hpadded, if_true, resize_take]
    · refine Or.inr ⟨fun h => hpadded h.1, ?_⟩
      simp only [hpadded, if_false, Bool.false_eq_true]

theorem limitLength_take (opts : StmtOptions) (bytes : List UInt8) (n : ℕ) :
    limitLength opts (bytes.take n) = (limitLength opts bytes).take n := by
  unfold limitLength
  split_ifs
  · rw [List.take_take, List.take_take, Nat.min_comm]
  · rfl

/-- A value that is not cut too short is measured as a whole in every call. -/
theorem limitLength_handedOver (opts : StmtOptions) (frame : CallFrame)
    (hcut : col.cut fCType → (limitLength opts (col.text fCType)).length ≤ minBuffer fCType)
    (hn : minBuffer fCType ≤ n) :
    limitLength opts (handedOver col fCType frame n).bytes =
      limitLength opts (col.text fCType) := by
  rcases handedOver_bytes col fCType frame n with ⟨hcol, hbytes⟩ | ⟨-, hbytes⟩
  · rw [hbytes, limitLength_take, List.take_of_length_le ((hcut hcol).trans hn)]
  · rw [hbytes]

/-- The resume position that a call starts from. -/
def startSource (col : ByteColumn) (getdata : BytePosition) : Option ℕ :=
  if col.number ≠ getdata.column then none else getdata.source

/-- A call delivers the bytes behind its resume position, whatever the target type. -/
theorem sqlGetData_eq {getdata : BytePosition} {frame : CallFrame} {value : Located}
    (hvalue : handedOver col fCType frame target.length = value)
    (hretrieve : opts.retrieveData = true)
    (hresume : ResumesAt (startSource col getdata) value.addr pos)
    (hpos : pos ≤ (limitLength opts value.bytes).length)
    (htarget : minBuffer fCType ≤ target.length) :
    sqlGetData opts col fCType getdata frame target =
      if (startSource col getdata).isSome ∧ (limitLength opts value.bytes).drop pos = [] then
        ⟨.SQL_NO_DATA_FOUND, target, none, startSource col getdata⟩
      else
        { copied ((limitLength opts value.bytes).drop pos) target
            (capacity fCType target.length) (value.addr + pos) with
          result := Buffer.store target 0
            (((limitLength opts value.bytes).drop pos).take (capacity fCType target.length) ++
              terminator fCType) } := by
  have hlen : (limitLength opts value.bytes).length < ulongSize :=
    (limitLength_isPrefixOf opts value.bytes).length_le.trans_lt value.length_lt
  subst hvalue
  cases fCType with
  | SQL_C_BINARY =>
    apply (copyBinaryResult_eq _ target hretrieve hresume hpos hlen target.length).trans
    rw [terminator, List.append_nil]
    rfl
  | SQL_C_CHAR =>
    exact copyAnsiResult_eq _ target hretrieve hresume hpos hlen htarget

variable (pos) in
/-- A call whose value is as it was delivers the next chunk or reports the end. -/
theorem sqlGetData_step (getdata : BytePosition) (frame : CallFrame)
    (hretrieve : opts.retrieveData = true)
    (hcut : col.cut fCType → (limitLength opts (col.text fCType)).length ≤ minBuffer fCType)
    (hresume : ResumesAt (startSource col getdata) (col.place fCType frame) pos)
    (hpos : pos ≤ (limitLength opts (col.text fCType)).length)
    (htarget : minBuffer fCType ≤ target.length) :
    if (startSource col getdata).isSome ∧ (limitLength opts (col.text fCType)).drop pos = [] then
      sqlGetData opts col fCType getdata frame target =
        ⟨.SQL_NO_DATA_FOUND, target, none, startSource col getdata⟩
    else
      DeliversBytes fCType ((limitLength opts (col.text fCType)).drop pos) target
          (sqlGetData opts col fCType getdata frame target) ∧
        (sqlGetData opts col fCType getdata frame target).source =
          some (col.place fCType frame + pos + min (capacity fCType target.length)
            ((limitLength opts (col.text fCType)).drop pos).length) := by
  have hbytes := limitLength_handedOver opts frame hcut htarget
  have haddr := handedOver_addr col fCType frame target.length
  have heq : sqlGetData opts col fCType getdata frame target = _ :=
    sqlGetData_eq rfl hretrieve (haddr ▸ hresume) (hbytes ▸ hpos) htarget
  rw [hbytes, haddr] at heq
  generalize (limitLength opts (col.text fCType)).drop pos = rest at *
  split_ifs with hdone
  · rw [heq, if_pos hdone]
  · rw [heq, if_neg hdone]
    refine ⟨⟨rfl, ?_, rfl, rfl⟩, rfl⟩
    rw [List.length_append, List.length_take]
    cases fCType with
    | SQL_C_BINARY => exact Nat.min_le_left _ _
    | SQL_C_CHAR =>
      have hone : 1 ≤ target.length := htarget
      simp only [capacity, terminator, List.length_singleton]
      omega

variable (pos) in
/-- Later calls go on where the last one stopped. -/
theorem getDataAll_later {frames : ℕ → CallFrame} {targets : List (List UInt8)}
    (hretrieve : opts.retrieveData = true)
    (hcut : col.cut fCType → (limitLength opts (col.text fCType)).length ≤ minBuffer fCType)
    (hplace : ∀ k, col.place fCType (frames k) = addr)
    (htargets : ∀ target ∈ targets, minBuffer fCType ≤ target.length)
    (hpos : pos ≤ (limitLength opts (col.text fCType)).length) :
    DeliversAllBytes fCType false ((limitLength opts (col.text fCType)).drop pos) targets
      (getDataAll opts col fCType frames k ⟨col.number, some (addr + pos)⟩ targets) := by
  induction targets generalizing k pos with
  | nil => trivial
  | cons target targets ih =>
    obtain ⟨htarget, htargets⟩ := List.forall_mem_cons.mp htargets
    have hsource : startSource col ⟨col.number, some (addr + pos)⟩ = some (addr + pos) := by
      simp [startSource]
    have hstep := sqlGetData_step pos ⟨col.number, some (addr + pos)⟩ (frames k) hretrieve
      hcut (Or.inr (by rw [hsource, hplace])) hpos htarget
    rw [hsource] at hstep
    rw [getDataAll, DeliversAllBytes]
    by_cases hdone : (limitLength opts (col.text fCType)).drop pos = []
    · rw [if_pos ⟨rfl, hdone⟩] at hstep ⊢
      rw [hstep]
      exact ⟨⟨rfl, rfl, rfl⟩, ih _ htargets hpos⟩
    · rw [if_neg (fun h => hdone h.2)] at hstep ⊢
      refine ⟨hstep.1, ?_⟩
      rw [hstep.2, hplace, List.length_drop, List.drop_drop, Nat.add_assoc]
      by_cases hroom : capacity fCType target.length ≤
          (limitLength opts (col.text fCType)).length - pos
      · rw [Nat.min_eq_left hroom]
        exact ih _ htargets (by omega)
      · rw [Nat.min_eq_right (by omega), List.drop_of_length_le (by omega)]
        have hend := ih (k := k + 1)
          (pos + ((limitLength opts (col.text fCType)).length - pos)) htargets (by omega)
        rwa [List.drop_of_length_le (by omega)] at hend

/-- The position before the first call on a column. -/
def FreshPosition (col : ByteColumn) (getdata : BytePosition) : Prop :=
  getdata.column ≠ col.number ∨ getdata.source = none

theorem startSource_of_fresh {getdata : BytePosition} (h : FreshPosition col getdata) :
    startSource col getdata = none := by
  unfold startSource
  rcases h with hcolumn | hsource
  · exact if_pos hcolumn.symm
  · rw [hsource, ite_self]

/-- A value that stays where it is and is not cut too short is delivered. -/
theorem getDataAll_delivers {frames : ℕ → CallFrame} {getdata : BytePosition}
    {targets : List (List UInt8)} (hretrieve : opts.retrieveData = true)
    (hfresh : FreshPosition col getdata)
    (hcut : col.cut fCType → (limitLength opts (col.text fCType)).length ≤ minBuffer fCType)
    (hplace : ∀ k, col.place fCType (frames k) = addr)
    (htargets : ∀ target ∈ targets, minBuffer fCType ≤ target.length) :
    DeliversAllBytes fCType true (limitLength opts (col.text fCType)) targets
      (getDataAll opts col fCType frames 0 getdata targets) := by
  cases targets with
  | nil => trivial
  | cons target targets =>
    obtain ⟨htarget, htargets⟩ := List.forall_mem_cons.mp htargets
    have hsource := startSource_of_fresh hfresh
    have hstep := sqlGetData_step 0 getdata (frames 0) hretrieve hcut (Or.inl ⟨hsource, rfl⟩) (Nat.zero_le _) htarget
    rw [hsource, if_neg (by simp), List.drop_zero, hplace] at hstep
    rw [getDataAll, DeliversAllBytes, if_neg (by simp)]
    refine ⟨hstep.1, ?_⟩
    rw [hstep.2, Nat.add_zero]
    by_cases hroom : capacity fCType target.length ≤ (limitLength opts (col.text fCType)).length
    · rw [Nat.min_eq_left hroom]
      exact getDataAll_later _ hretrieve hcut hplace htargets hroom
    · have hend := getDataAll_later (k := 1) _ hretrieve hcut hplace htargets (le_refl _)
      rw [Nat.min_eq_right (by omega)]
      rwa [List.drop_of_length_le le_rfl, ← List.drop_of_length_le (Nat.le_of_not_le hroom)] at hend

/-- A buffer of the smallest size. -/
def smallest (fCType : ByteTarget) : List UInt8 := List.replicate (minBuffer fCType) 0

@[simp] theorem length_smallest : (smallest fCType).length = minBuffer fCType :=
  List.length_replicate

theorem capacity_minBuffer : capacity fCType (minBuffer fCType) = 0 := by
  cases fCType <;> rfl

/-- A value that is longer than the smallest buffer and cut to it is misreported. -/
theorem sqlGetData_cut {getdata : BytePosition} {frame : CallFrame}
    (hretrieve : opts.retrieveData = true) (hfresh : FreshPosition col getdata)
    (hcol : col.cut fCType)
    (hlong : minBuffer fCType < (limitLength opts (col.text fCType)).length) :
    ¬ DeliversBytes fCType (limitLength opts (col.text fCType)) (smallest fCType)
      (sqlGetData opts col fCType getdata frame (smallest fCType)) := by
  intro hdelivers
  have hsource := startSource_of_fresh hfresh
  have hbytes : (handedOver col fCType frame (smallest fCType).length).bytes =
      (col.text fCType).take (minBuffer fCType) := by
    rcases handedOver_bytes col fCType frame (smallest fCType).length with ⟨-, h⟩ | ⟨h, -⟩
    · rw [h, length_smallest]
    · exact absurd hcol h
  have heq : sqlGetData opts col fCType getdata frame (smallest fCType) = _ :=
    sqlGetData_eq rfl hretrieve (Or.inl ⟨hsource, rfl⟩) (Nat.zero_le _) (by simp)
  rw [hsource, if_neg (by simp), hbytes, List.drop_zero, limitLength_take] at heq
  have havail := hdelivers.availBytes_eq
  rw [heq] at havail
  have hlen : ((limitLength opts (col.text fCType)).take (minBuffer fCType)).length =
      (limitLength opts (col.text fCType)).length := Option.some.inj havail
  rw [List.length_take] at hlen
  omega

/-- A call that has room for no data measures what is behind the resume position. -/
theorem copyBinaryResult_zero (hretrieve : opts.retrieveData = true) (s len : ℕ) :
    copyBinaryResult opts memory (some s) target 0 addr len =
      if ulongSub (if opts.maxLength ≠ 0 ∧ opts.maxLength < len then opts.maxLength else len)
          (ulongSub s addr) = 0 then
        ⟨.SQL_NO_DATA_FOUND, target, none, some s⟩
      else
        ⟨.SQL_SUCCESS_WITH_INFO, target, some (ulongSub
          (if opts.maxLength ≠ 0 ∧ opts.maxLength < len then opts.maxLength else len)
          (ulongSub s addr)), some s⟩ := by
  unfold copyBinaryResult
  generalize (if opts.maxLength ≠ 0 ∧ opts.maxLength < len then opts.maxLength else len) = limited
  simp only [Option.isSome_some, true_and, hretrieve, if_true]
  by_cases hdone : ulongSub limited (ulongSub s addr) = 0
  · rw [if_pos hdone, if_pos hdone]
  · rw [if_neg hdone, if_neg hdone]
    simp [Nat.pos_of_ne_zero hdone]

/-- The bytes that a call finds behind its resume position when the value lies
somewhere else than before. -/
def remaining (opts : StmtOptions) (value : Located) (s : ℕ) : ℕ :=
  ulongSub (limitLength opts value.bytes).length (ulongSub s value.addr)

/-- With the smallest buffer, a call only measures; the resume position stays. -/
theorem sqlGetData_smallest {getdata : BytePosition} {s : ℕ} (fCType : ByteTarget)
    (frame : CallFrame)
    (hretrieve : opts.retrieveData = true) (hsource : startSource col getdata = some s) :
    (sqlGetData opts col fCType getdata frame (smallest fCType)).source = some s ∧
      ((sqlGetData opts col fCType getdata frame (smallest fCType)).rc = .SQL_NO_DATA_FOUND →
        remaining opts (handedOver col fCType frame (minBuffer fCType)) s = 0) ∧
      ∀ n, (sqlGetData opts col fCType getdata frame (smallest fCType)).availBytes = some n →
        n = remaining opts (handedOver col fCType frame (minBuffer fCType)) s := by
  have hsource' : (if col.number ≠ getdata.column then none else getdata.source) = some s := hsource
  cases fCType with
  | SQL_C_BINARY =>
    simp only [sqlGetData, hsource', length_smallest, minBuffer, copyBinaryResult_zero hretrieve,
      length_limitLength]
    split_ifs with hdone
    · exact ⟨rfl, fun _ => hdone, by simp⟩
    · exact ⟨rfl, by simp, fun n hn => (Option.some.inj hn).symm⟩
  | SQL_C_CHAR =>
    simp only [sqlGetData, hsource', length_smallest, minBuffer, copyAnsiResult, Nat.sub_self,
      copyBinaryResult_zero hretrieve, length_limitLength, Nat.one_ne_zero, false_and, if_false]
    split_ifs with hdone
    · exact ⟨rfl, fun _ => hdone, by simp⟩
    · exact ⟨rfl, fun _ => hdone, by simp⟩
    · exact ⟨rfl, by simp, fun n hn => (Option.some.inj hn).symm⟩
    · exact ⟨rfl, by simp, fun n hn => (Option.some.inj hn).symm⟩

/-- The right number of bytes is found only where the value was before. -/
theorem addr_eq_of_remaining {value : Located} {s : ℕ} (hs : s < ulongSize)
    (h : remaining opts value s = (limitLength opts value.bytes).length) : s = value.addr := by
  have haddr := value.addr_lt
  have hlen := (limitLength_isPrefixOf opts value.bytes).length_le.trans_lt value.length_lt
  unfold remaining ulongSub ulongSize at *
  omega

/-- If calls that only measure deliver, the value has not moved. -/
theorem place_eq_of_delivers {frames : ℕ → CallFrame} {s : ℕ} (hs : s < ulongSize)
    (hretrieve : opts.retrieveData = true)
    (hcut : col.cut fCType → (limitLength opts (col.text fCType)).length ≤ minBuffer fCType)
    (j : ℕ) (h : DeliversAllBytes fCType false (limitLength opts (col.text fCType))
      (List.replicate (j + 1) (smallest fCType))
      (getDataAll opts col fCType frames k ⟨col.number, some s⟩
        (List.replicate (j + 1) (smallest fCType)))) :
    s = col.place fCType (frames (k + j)) := by
  have hsource : startSource col ⟨col.number, some s⟩ = some s := by simp [startSource]
  induction j generalizing k with
  | zero =>
    obtain ⟨-, hrc, havail⟩ := sqlGetData_smallest fCType (frames k) hretrieve hsource
    have hbytes := limitLength_handedOver opts (frames k) hcut le_rfl
    rw [Nat.add_zero, ← handedOver_addr col fCType (frames k) (minBuffer fCType)]
    refine addr_eq_of_remaining hs (?_ : remaining opts _ _ = _)
    rw [hbytes]
    simp only [Nat.zero_add, List.replicate_one, getDataAll, DeliversAllBytes] at h
    split_ifs at h with hdone
    · rw [hrc h.1.1, hdone.2, List.length_nil]
    · exact (havail _ h.1.availBytes_eq).symm
  | succ j ih =>
    obtain ⟨hnext, -⟩ := sqlGetData_smallest fCType (frames k) hretrieve hsource
    rw [List.replicate_succ, getDataAll, DeliversAllBytes, hnext, length_smallest,
      capacity_minBuffer, List.drop_zero] at h
    rw [show k + (j + 1) = k + 1 + j by omega]
    split_ifs at h with hdone
    · exact ih h.2
    · exact ih h.2

/-- For every maximal length, every sequence of `SQLGetData` calls delivers the value
of a column exactly if the value is handed over at one address in all calls and,
when it is a padded one, the smallest buffer is as long. -/
theorem getDataAll_delivers_iff (maxLength : ℕ) (col : ByteColumn) (fCType : ByteTarget)
    (frames : ℕ → CallFrame) (getdata : BytePosition) (hfresh : FreshPosition col getdata) :
    (∀ targets : List (List UInt8), (∀ target ∈ targets, minBuffer fCType ≤ target.length) →
      DeliversAllBytes fCType true (limitLength ⟨maxLength, true⟩ (col.text fCType)) targets
        (getDataAll ⟨maxLength, true⟩ col fCType frames 0 getdata targets)) ↔
      (col.cut fCType →
        (limitLength ⟨maxLength, true⟩ (col.text fCType)).length ≤ minBuffer fCType) ∧
      ∀ k, col.place fCType (frames k) = col.place fCType (frames 0) := by
  constructor
  · intro hall
    have hcut : col.cut fCType →
        (limitLength ⟨maxLength, true⟩ (col.text fCType)).length ≤ minBuffer fCType := by
      intro hcol
      by_contra hlong
      have hone := hall [smallest fCType] (by simp)
      rw [getDataAll, DeliversAllBytes, if_neg (by simp)] at hone
      exact sqlGetData_cut rfl hfresh hcol (not_le.mp hlong) hone.1
    refine ⟨hcut, fun k => ?_⟩
    cases k with
    | zero => rfl
    | succ k =>
      have hmany := hall (List.replicate (k + 1 + 1) (smallest fCType)) (by
        intro target htarget
        rw [List.eq_of_mem_replicate htarget, length_smallest])
      have hsmall : minBuffer fCType ≤ (smallest fCType).length := by simp
      have hstep := sqlGetData_step 0 getdata (frames 0) rfl hcut
        (Or.inl ⟨startSource_of_fresh hfresh, rfl⟩) (Nat.zero_le _) hsmall
      rw [startSource_of_fresh hfresh, if_neg (by simp)] at hstep
      rw [List.replicate_succ, getDataAll, DeliversAllBytes, if_neg (by simp), hstep.2,
        length_smallest, capacity_minBuffer, List.drop_zero, Nat.zero_min] at hmany
      have hplace : col.place fCType (frames 0) < ulongSize := by
        rw [← handedOver_addr col fCType (frames 0) 0]
        exact (handedOver col fCType (frames 0) 0).addr_lt
      have hsame := place_eq_of_delivers hplace rfl hcut k hmany.2
      rw [Nat.zero_add, Nat.add_comm 1 k] at hsame
      exact hsame.symm
  · rintro ⟨hcut, hplace⟩ targets htargets
    exact getDataAll_delivers rfl hfresh hcut hplace htargets

/-- The value `abcdef` of a column for which no conversion is needed. -/
def plainColumn : ByteColumn where
  number := 0
  value := ⟨0x1000, [0x61, 0x62, 0x63, 0x64, 0x65, 0x66], by decide, by decide⟩
  octetLength := 6
  octetLength_lt := by decide
  optPadSpace := false
  enumFlag := true
  setFlag := false
  charType := true
  converted _ := none

/-- The same value with the option that pads it. -/
def paddedColumn : ByteColumn := { plainColumn with optPadSpace := true }

/-- Calls that all have their local variables at the same addresses. -/
def sameFrame : ℕ → CallFrame := fun _ =>
  { tempStr := 0x2000, buff := 0x3000, memory := fun _ => 0, tempStr_lt := by decide,
    buff_lt := by decide }

/-- Without padding, the value `abcdef` is delivered into buffers of any sizes. -/
theorem getDataAll_delivers_iff_plainColumn :
    FreshPosition plainColumn ⟨-1, none⟩ ∧
      ∀ targets : List (List UInt8), (∀ target ∈ targets, 1 ≤ target.length) →
        DeliversAllBytes .SQL_C_CHAR true (limitLength ⟨0, true⟩ (plainColumn.text .SQL_C_CHAR))
          targets (getDataAll ⟨0, true⟩ plainColumn .SQL_C_CHAR sameFrame 0 ⟨-1, none⟩ targets) := by
  have hfresh : FreshPosition plainColumn ⟨-1, none⟩ := Or.inr rfl
  refine ⟨hfresh, ?_⟩
  apply (getDataAll_delivers_iff 0 plainColumn .SQL_C_CHAR sameFrame ⟨-1, none⟩ hfresh).mpr
  constructor
  · rintro ⟨hpadded, -⟩
    exact absurd hpadded (by decide)
  · intro k
    rfl

/-- With padding, a first buffer of three bytes gets half of the value `abcdef`,
but the call reports three bytes and no truncation. -/
theorem getDataAll_paddedColumn_not_delivers :
    getDataAll ⟨0, true⟩ paddedColumn .SQL_C_BINARY sameFrame 0 ⟨-1, none⟩ [[0, 0, 0]] =
        [⟨.SQL_SUCCESS, [0x61, 0x62, 0x63], some 3, some 0x2003⟩] ∧
      paddedColumn.text .SQL_C_BINARY = [0x61, 0x62, 0x63, 0x64, 0x65, 0x66] ∧
        ¬ DeliversAllBytes .SQL_C_BINARY true
          (limitLength ⟨0, true⟩ (paddedColumn.text .SQL_C_BINARY)) [[0, 0, 0]]
          (getDataAll ⟨0, true⟩ paddedColumn .SQL_C_BINARY sameFrame 0 ⟨-1, none⟩ [[0, 0, 0]]) := by
  have hrun : getDataAll ⟨0, true⟩ paddedColumn .SQL_C_BINARY sameFrame 0 ⟨-1, none⟩ [[0, 0, 0]] =
      [⟨.SQL_SUCCESS, [0x61, 0x62, 0x63], some 3, some 0x2003⟩] := by decide +kernel
  refine ⟨hrun, by decide +kernel, ?_⟩
  rw [hrun, DeliversAllBytes, if_neg (by simp)]
  rintro ⟨hdelivers, -⟩
  have havail := hdelivers.availBytes_eq
  exact absurd havail (by decide +kernel)

end MatrixOdbc.Driver
