import Mathlib.Data.List.Basic
import Mathlib.Tactic.Common

/-!
# Query attributes

`STMT::bind_query_attrs` hands the binds of a statement to the client library: first the ones
of the parameters, then the attributes of the application, then the ones of the driver. All of
them are in one vector, which is kept from one execution to the next, so that an attribute may
meet what an earlier statement has left in its place.
-/

namespace MatrixOdbc.Driver

/-- The types of values that `insert_param` puts into a bind. -/
inductive BindType where
  | MYSQL_TYPE_STRING | MYSQL_TYPE_BLOB | MYSQL_TYPE_TINY
  deriving DecidableEq

/-- A value with its type; a `MYSQL_TYPE_TINY` has one byte. -/
inductive BindValue where
  | text (bytes : List UInt8)
  | blob (bytes : List UInt8)
  | tiny (byte : UInt8)
  deriving DecidableEq

/-- The type of a value. -/
def BindValue.type : BindValue → BindType
  | text _ => .MYSQL_TYPE_STRING
  | blob _ => .MYSQL_TYPE_BLOB
  | tiny _ => .MYSQL_TYPE_TINY

/-- The bytes of a value. -/
def BindValue.bytes : BindValue → List UInt8
  | text bytes => bytes
  | blob bytes => bytes
  | tiny byte => [byte]

/-- What is used of a `MYSQL_BIND`: `buffer` has `buffer_length` bytes. The pointers `is_null`
and `length` point to the fields of the bind itself, or they are null. -/
structure ParamBind where
  bufferType : BindType
  buffer : List UInt8
  lengthValue : ℕ
  isNullValue : Bool
  hasPointers : Bool
  deriving DecidableEq

namespace ParamBind

/-- `MYSQL_BIND{}`. -/
def zero : ParamBind :=
  { bufferType := .MYSQL_TYPE_TINY
    buffer := []
    lengthValue := 0
    isNullValue := false
    hasPointers := false }

/-- `bind_param`. -/
def bindParam (bind : ParamBind) (value : BindValue) : ParamBind :=
  { bind with
    bufferType := value.type
    buffer := value.bytes ++ bind.buffer.drop value.bytes.length
    lengthValue := value.bytes.length }

/-- The value that the client library reads from a bind, nothing for NULL. Without the pointers
a bind is not NULL and as long as its buffer. -/
def sent (bind : ParamBind) : Option BindValue :=
  if bind.hasPointers && bind.isNullValue then none
  else
    let length := if bind.hasPointers then bind.lengthValue else bind.buffer.length
    match bind.bufferType with
    | .MYSQL_TYPE_STRING => some (.text (bind.buffer.take length))
    | .MYSQL_TYPE_BLOB => some (.blob (bind.buffer.take length))
    | .MYSQL_TYPE_TINY => some (.tiny (bind.buffer.headD 0))

end ParamBind

/-- What `insert_param` does to a bind when it is no error: NULL, a value, or nothing at all for
a value that is no interval. -/
inductive BindEffect where
  | null
  | value (value : BindValue)
  | untouched
  deriving DecidableEq

namespace BindEffect

/-- The bind behind `insert_param`. -/
def apply (effect : BindEffect) (bind : ParamBind) : ParamBind :=
  match effect with
  | null => { bind with isNullValue := true }
  | value v => bind.bindParam v
  | untouched => bind

/-- The value that was supplied, if any. -/
def supplied : BindEffect → Option (Option BindValue)
  | null => some none
  | value v => some (some v)
  | untouched => none

/-- A bind keeps nothing of an earlier value: it is not marked NULL when a value is put into it,
it has its pointers when NULL is, and without them its buffer is not longer than the value. -/
def Fits (effect : BindEffect) (bind : ParamBind) : Prop :=
  match effect with
  | null => bind.hasPointers = true
  | value v =>
    if bind.hasPointers then bind.isNullValue = false
    else v.type = .MYSQL_TYPE_TINY ∨ bind.buffer.length ≤ v.bytes.length
  | untouched => False

/-- The whole buffer is the value unless it was longer before. -/
theorem take_buffer_eq_iff {bytes old : List UInt8} :
    (bytes ++ old.drop bytes.length).take (bytes ++ old.drop bytes.length).length = bytes ↔
      old.length ≤ bytes.length := by
  rw [List.take_length, List.append_right_eq_self, List.drop_eq_nil_iff]

/-- The value arrives exactly when the bind keeps nothing of an earlier one. -/
theorem sent_apply_iff (effect : BindEffect) (bind : ParamBind) :
    some (effect.apply bind).sent = effect.supplied ↔ effect.Fits bind := by
  cases effect with
  | null =>
    unfold apply supplied Fits ParamBind.sent
    cases hpointers : bind.hasPointers with
    | true => simp
    | false => cases bind.bufferType <;> simp
  | untouched => simp [supplied, Fits]
  | value v =>
    unfold apply supplied Fits ParamBind.sent ParamBind.bindParam
    cases hpointers : bind.hasPointers with
    | true =>
      cases hnull : bind.isNullValue with
      | true => simp
      | false => cases v <;> simp [BindValue.type, BindValue.bytes]
    | false =>
      cases v with
      | text bytes =>
        have hwhole := @take_buffer_eq_iff bytes bind.buffer
        simpa [BindValue.type, BindValue.bytes] using hwhole
      | blob bytes =>
        have hwhole := @take_buffer_eq_iff bytes bind.buffer
        simpa [BindValue.type, BindValue.bytes] using hwhole
      | tiny byte => simp [BindValue.type, BindValue.bytes]

end BindEffect

/-- An attribute of the driver, with the text that it was made for. -/
structure InternalAttr where
  name : List UInt8
  supplied : List UInt8
  bind : ParamBind

/-- What `bind_query_attrs` reads of a statement. -/
structure AttrStmt where
  paramCount : ℕ
  /-- The records of the descriptors. -/
  apdCount : ℕ
  ipdCount : ℕ
  /-- The name in a record of the IPD. -/
  name : ℕ → Option (List UInt8)
  /-- What `insert_param` does with a pair of records; nothing for an error. -/
  insertParam : ℕ → Option BindEffect
  paramBind : List ParamBind
  paramNames : List (Option (List UInt8))
  attrData : List InternalAttr
  /-- The client library binds by name: `MYSQL_VERSION_ID >= 80300`. -/
  named : Bool
  hasQueryAttrs : Bool
  /-- The answer of the client library. -/
  bindFails : Bool

namespace AttrStmt

/-- `allocate_param_bind`: where the vector grows, all binds get their pointers. -/
def allocateParamBind (paramBind : List ParamBind) (elements : ℕ) : List ParamBind :=
  if paramBind.length < elements then
    (paramBind ++ List.replicate (elements - paramBind.length) ParamBind.zero).map
      fun bind => { bind with hasPointers := true }
  else paramBind

/-- `param_names.resize`. -/
def resizeNames (names : List (Option (List UInt8))) (size : ℕ) : List (Option (List UInt8)) :=
  names.take size ++ List.replicate (size - names.length) none

/-- Where the loop over the attributes of the application ends. -/
inductive AttrLoop where
  | done (paramBind : List ParamBind) (paramNames : List (Option (List UInt8)))
  /-- `return SQL_SUCCESS; // Nothing to do`. -/
  | nothingToDo
  | error

variable (s : AttrStmt)

/-- The loop over the records of the APD behind the parameters. -/
def bindUserAttrs : ℕ → ℕ → List ParamBind → List (Option (List UInt8)) → AttrLoop
  | 0, _, paramBind, paramNames => .done paramBind paramNames
  | count + 1, paramIdx, paramBind, paramNames =>
    if s.ipdCount ≤ paramIdx then .nothingToDo
    else
      match s.insertParam paramIdx with
      | none => .error
      | some effect =>
        bindUserAttrs count (paramIdx + 1) (paramBind.modify paramIdx effect.apply)
          (paramNames.set paramIdx (s.name paramIdx))

/-- The loop over the attributes of the driver: a bind takes over the buffer. -/
def bindInternalAttrs : List InternalAttr → ℕ → List ParamBind → List (Option (List UInt8)) →
    List ParamBind × List (Option (List UInt8))
  | [], _, paramBind, paramNames => (paramBind, paramNames)
  | attr :: attrs, paramIdx, paramBind, paramNames =>
    bindInternalAttrs attrs (paramIdx + 1) (paramBind.set paramIdx attr.bind)
      (paramNames.set paramIdx (some attr.name))

/-- How many binds are handed over. -/
def boundNumber (paramNames : List (Option (List UInt8))) : ℕ :=
  if s.named && s.hasQueryAttrs then paramNames.length else s.paramCount

/-- The binds with their names that are handed to the client library. -/
def handed (paramBind : List ParamBind) (paramNames : List (Option (List UInt8))) :
    List (ParamBind × Option (List UInt8)) :=
  let number := s.boundNumber paramNames
  if s.named then (paramBind.take number).zip (paramNames.take number)
  else (paramBind.take number).map fun bind => (bind, none)

/-- How a call ends. -/
inductive AttrResult where
  | SQL_SUCCESS (handed : Option (List (ParamBind × Option (List UInt8))))
  /-- 07001: too few records. -/
  | tooFew
  | SQL_ERROR

/-- `bind_query_attrs(true)`. -/
def bindQueryAttrs : AttrResult :=
  if s.apdCount < s.paramCount then .tooFew
  else
    let paramNames := resizeNames s.paramNames (s.apdCount + s.attrData.length)
    let paramBind := allocateParamBind s.paramBind (s.apdCount + s.attrData.length)
    match s.bindUserAttrs (s.apdCount - s.paramCount) s.paramCount paramBind paramNames with
    | .nothingToDo => .SQL_SUCCESS none
    | .error => .SQL_ERROR
    | .done paramBind paramNames =>
      let (paramBind, paramNames) :=
        bindInternalAttrs s.attrData s.apdCount paramBind paramNames
      if s.boundNumber paramNames = 0 then .SQL_SUCCESS none
      else if s.bindFails then .SQL_ERROR
      else .SQL_SUCCESS (some (s.handed paramBind paramNames))

/-- What is promised of the statement before the call: each parameter has its bind with its
pointers, and the names of the parameters are null. -/
structure Ready : Prop where
  binds : s.paramCount ≤ s.paramBind.length
  pointers : ∀ bind ∈ s.paramBind.take s.paramCount, bind.hasPointers = true
  names : ∀ name ∈ s.paramNames.take s.paramCount, name = none

/-- What is to be handed over: the parameters without names, the attributes of the application
(the records of both descriptors behind the parameters), and the ones of the driver. -/
def supplied : List (Option (Option BindValue) × Option (List UInt8)) :=
  (s.paramBind.take s.paramCount).map (fun bind => (some bind.sent, none)) ++
    (List.range' s.paramCount (min s.apdCount s.ipdCount - s.paramCount)).map
      (fun i => ((s.insertParam i).bind BindEffect.supplied, s.name i)) ++
    s.attrData.map fun attr => (some (some (.text attr.supplied)), some attr.name)

/-- The parameters have been handed over in their order, and the attributes behind them. -/
def HandedInOrder (handed : Option (List (ParamBind × Option (List UInt8)))) : Prop :=
  ∃ binds, handed = some binds ∧
    binds.map (fun bind => (some bind.1.sent, bind.2)) = s.supplied

/-- The bind that an attribute of the application meets. -/
def slot (i : ℕ) : Option ParamBind :=
  (allocateParamBind s.paramBind (s.apdCount + s.attrData.length))[i]?

/-- Every record of the APD behind the parameters has one of the IPD, attributes are sent at
all where there are any, their binds keep nothing of an earlier statement, and the ones of the
driver have not been taken over before. -/
structure AttributesReach : Prop where
  records : s.apdCount = s.paramCount ∨ s.apdCount ≤ s.ipdCount
  sent : s.named = true ∧ s.hasQueryAttrs = true ∨
    s.apdCount = s.paramCount ∧ s.attrData = []
  slots : ∀ (i : ℕ) (effect : BindEffect) (bind : ParamBind), s.paramCount ≤ i → i < s.apdCount →
    s.insertParam i = some effect → s.slot i = some bind → effect.Fits bind
  internal : ∀ attr ∈ s.attrData, attr.bind.sent = some (.text attr.supplied)

variable {s}

theorem length_allocateParamBind (paramBind : List ParamBind) (elements : ℕ) :
    elements ≤ (allocateParamBind paramBind elements).length := by
  unfold allocateParamBind
  split_ifs with hless
  · rw [List.length_map, List.length_append, List.length_replicate]
    omega
  · omega

theorem length_resizeNames (names : List (Option (List UInt8))) (size : ℕ) :
    (resizeNames names size).length = size := by
  rw [resizeNames, List.length_append, List.length_take, List.length_replicate]
  omega

/-- The binds of the parameters stay as they are when the vector grows. -/
theorem Ready.take_allocateParamBind (h : s.Ready) (elements : ℕ) :
    (allocateParamBind s.paramBind elements).take s.paramCount =
      s.paramBind.take s.paramCount := by
  unfold allocateParamBind
  split_ifs with hless
  · rw [← List.map_take, List.take_append_of_le_length h.binds]
    conv_rhs => rw [← List.map_id (s.paramBind.take s.paramCount)]
    apply List.map_congr_left
    intro bind hbind
    have hpointers := h.pointers bind hbind
    cases bind
    subst hpointers
    rfl
  · rfl

/-- The names of the parameters stay null. -/
theorem Ready.take_resizeNames (h : s.Ready) {size : ℕ} (hsize : s.paramCount ≤ size) :
    (resizeNames s.paramNames size).take s.paramCount = List.replicate s.paramCount none := by
  rw [List.eq_replicate_iff]
  refine ⟨by rw [List.length_take, length_resizeNames]; omega, ?_⟩
  intro name hname
  rw [resizeNames, List.take_append, List.take_take, Nat.min_eq_left hsize] at hname
  obtain hold | hnew := List.mem_append.mp hname
  · exact h.names name hold
  · exact List.eq_of_mem_replicate (List.mem_of_mem_take hnew)

/-- A place behind a list of its index. -/
theorem modify_append_cons {α : Type*} (front : List α) (x : α) (back : List α) (f : α → α) :
    (front ++ x :: back).modify front.length f = front ++ f x :: back := by
  induction front with
  | nil => rfl
  | cons y front ih => simpa using ih

theorem set_append_cons {α : Type*} (front : List α) (x y : α) (back : List α) :
    (front ++ x :: back).set front.length y = front ++ y :: back := by
  induction front with
  | nil => rfl
  | cons z front ih => simp

variable (s) in
/-- The binds behind the calls of `insert_param`. -/
def applyAll : ℕ → List ParamBind → List ParamBind
  | _, [] => []
  | i, bind :: binds =>
    ((s.insertParam i).elim bind fun effect => effect.apply bind) :: applyAll (i + 1) binds

@[simp] theorem length_applyAll (i : ℕ) (binds : List ParamBind) :
    (s.applyAll i binds).length = binds.length := by
  induction binds generalizing i with
  | nil => rfl
  | cons bind binds ih => rw [applyAll, List.length_cons, ih, List.length_cons]

/-- The loop over the attributes of the application changes their places only. -/
theorem bindUserAttrs_done {front slots back paramBind : List ParamBind}
    {frontNames names backNames paramNames : List (Option (List UInt8))}
    (hfront : frontNames.length = front.length) (hnames : names.length = slots.length)
    (hdone : s.bindUserAttrs slots.length front.length (front ++ (slots ++ back))
      (frontNames ++ (names ++ backNames)) = .done paramBind paramNames) :
    (slots = [] ∨ front.length + slots.length ≤ s.ipdCount) ∧
      (∀ i, front.length ≤ i → i < front.length + slots.length → (s.insertParam i).isSome) ∧
      paramBind = front ++ (s.applyAll front.length slots ++ back) ∧
      paramNames = frontNames ++ ((List.range' front.length slots.length).map s.name ++ backNames) := by
  induction slots generalizing front frontNames names with
  | nil =>
    obtain rfl := List.length_eq_zero_iff.mp hnames
    rw [List.length_nil, bindUserAttrs] at hdone
    cases hdone
    exact ⟨Or.inl rfl, fun i hlow hhigh => absurd hhigh (by simpa using hlow), rfl, rfl⟩
  | cons slot slots ih =>
    obtain ⟨name, names, rfl⟩ := List.exists_cons_of_length_eq_add_one hnames
    rw [List.length_cons, bindUserAttrs] at hdone
    split_ifs at hdone with hrecords
    cases heffect : s.insertParam front.length with
    | none =>
      rw [heffect] at hdone
      cases hdone
    | some effect =>
      rw [heffect] at hdone
      dsimp only at hdone
      rw [List.cons_append, List.cons_append, modify_append_cons, ← hfront, set_append_cons,
        ← List.singleton_append, ← List.singleton_append (l := names ++ backNames),
        ← List.append_assoc, ← List.append_assoc frontNames, hfront] at hdone
      have hlength : (front ++ [effect.apply slot]).length = front.length + 1 := by simp
      rw [← hlength] at hdone
      obtain ⟨hipd, hsome, hbinds, hnames'⟩ := ih (by simp [hfront])
        (by simpa using hnames) hdone
      refine ⟨Or.inr ?_, ?_, ?_, ?_⟩
      · obtain rfl | hipd := hipd
        · simp
          omega
        · rw [hlength] at hipd
          rw [List.length_cons]
          omega
      · intro i hlow hhigh
        obtain rfl | hlow := Nat.eq_or_lt_of_le hlow
        · rw [heffect]
          rfl
        · rw [List.length_cons] at hhigh
          exact hsome i (by omega) (by omega)
      · rw [hbinds, applyAll, heffect, hlength]
        simp
      · rw [hnames', hlength, List.length_cons, List.range'_succ]
        simp

/-- The loop over the attributes of the driver. -/
theorem bindInternalAttrs_eq {attrs : List InternalAttr} {front slots back : List ParamBind}
    {frontNames names backNames : List (Option (List UInt8))}
    (hfront : frontNames.length = front.length) (hslots : slots.length = attrs.length)
    (hnames : names.length = attrs.length) :
    bindInternalAttrs attrs front.length (front ++ (slots ++ back))
        (frontNames ++ (names ++ backNames)) =
      (front ++ (attrs.map InternalAttr.bind ++ back),
        frontNames ++ ((attrs.map fun attr => some attr.name) ++ backNames)) := by
  induction attrs generalizing front frontNames slots names with
  | nil =>
    obtain rfl := List.length_eq_zero_iff.mp hslots
    obtain rfl := List.length_eq_zero_iff.mp hnames
    rfl
  | cons attr attrs ih =>
    obtain ⟨slot, slots, rfl⟩ := List.exists_cons_of_length_eq_add_one hslots
    obtain ⟨name, names, rfl⟩ := List.exists_cons_of_length_eq_add_one hnames
    rw [bindInternalAttrs, List.cons_append, List.cons_append, set_append_cons, ← hfront,
      set_append_cons, ← List.singleton_append, ← List.singleton_append (l := names ++ backNames),
      ← List.append_assoc, ← List.append_assoc frontNames, hfront]
    have hlength : (front ++ [attr.bind]).length = front.length + 1 := by simp
    rw [← hlength, ih (by simp [hfront]) (by simpa using hslots) (by simpa using hnames)]
    simp

/-- There is nothing to do only where a record of the IPD is missing. -/
theorem bindUserAttrs_nothingToDo {count paramIdx : ℕ} {paramBind : List ParamBind}
    {paramNames : List (Option (List UInt8))}
    (hnothing : s.bindUserAttrs count paramIdx paramBind paramNames = .nothingToDo) :
    0 < count ∧ s.ipdCount < paramIdx + count := by
  induction count generalizing paramIdx paramBind paramNames with
  | zero => exact absurd hnothing nofun
  | succ count ih =>
    rw [bindUserAttrs] at hnothing
    split_ifs at hnothing with hrecords
    · omega
    · cases heffect : s.insertParam paramIdx with
      | none =>
        rw [heffect] at hnothing
        exact absurd hnothing nofun
      | some effect =>
        rw [heffect] at hnothing
        have hrest := ih hnothing
        omega

/-- The attributes of the application arrive exactly when their binds keep nothing. -/
theorem applyAll_supplied_iff {i : ℕ} {slots : List ParamBind}
    (hsome : ∀ j, i ≤ j → j < i + slots.length → (s.insertParam j).isSome) :
    (((s.applyAll i slots).zip ((List.range' i slots.length).map s.name)).map
        (fun bind => (some bind.1.sent, bind.2)) =
      (List.range' i slots.length).map
        fun j => ((s.insertParam j).bind BindEffect.supplied, s.name j)) ↔
      ∀ (j : ℕ) (effect : BindEffect) (bind : ParamBind), s.insertParam (i + j) = some effect →
        slots[j]? = some bind → effect.Fits bind := by
  induction slots generalizing i with
  | nil => simp [applyAll]
  | cons slot slots ih =>
    obtain ⟨effect, heffect⟩ := Option.isSome_iff_exists.mp (hsome i (Nat.le_refl i) (by simp))
    have hrest := ih (i := i + 1) fun j hlow hhigh =>
      hsome j (by omega) (by rw [List.length_cons]; omega)
    rw [List.length_cons, List.range'_succ, List.map_cons, List.map_cons, applyAll,
      List.zip_cons_cons, List.map_cons, List.cons.injEq, hrest, heffect]
    simp only [Option.elim_some, Option.bind_some, Prod.mk.injEq, and_true,
      BindEffect.sent_apply_iff]
    constructor
    · rintro ⟨hfirst, hall⟩ j effect' bind heffect' hbind
      cases j with
      | zero =>
        rw [Nat.add_zero, heffect] at heffect'
        cases heffect'
        cases hbind
        exact hfirst
      | succ j =>
        exact hall j effect' bind (by rwa [Nat.add_assoc, Nat.add_comm 1]) hbind
    · intro hall
      refine ⟨hall 0 effect slot heffect rfl, fun j effect' bind heffect' hbind => ?_⟩
      exact hall (j + 1) effect' bind (by rwa [Nat.add_assoc, Nat.add_comm 1] at heffect') hbind

/-- The loops keep the number of names. -/
theorem bindUserAttrs_length {count paramIdx : ℕ} {paramBind paramBind' : List ParamBind}
    {paramNames paramNames' : List (Option (List UInt8))}
    (hdone : s.bindUserAttrs count paramIdx paramBind paramNames = .done paramBind' paramNames') :
    paramNames'.length = paramNames.length := by
  induction count generalizing paramIdx paramBind paramNames with
  | zero =>
    cases hdone
    rfl
  | succ count ih =>
    rw [bindUserAttrs] at hdone
    split_ifs at hdone with hrecords
    cases heffect : s.insertParam paramIdx with
    | none =>
      rw [heffect] at hdone
      exact absurd hdone nofun
    | some effect =>
      rw [heffect] at hdone
      rw [ih hdone, List.length_set]

theorem bindInternalAttrs_length (attrs : List InternalAttr) (paramIdx : ℕ)
    (paramBind : List ParamBind) (paramNames : List (Option (List UInt8))) :
    (bindInternalAttrs attrs paramIdx paramBind paramNames).2.length = paramNames.length := by
  induction attrs generalizing paramIdx paramBind paramNames with
  | nil => rfl
  | cons attr attrs ih => rw [bindInternalAttrs, ih, List.length_set]

/-- A list in pieces of given lengths. -/
theorem exists_pieces {α : Type*} {l : List α} {a b c : ℕ} (h : a + b + c ≤ l.length) :
    ∃ x y z, l = l.take a ++ (x ++ (y ++ z)) ∧ x.length = b ∧ y.length = c := by
  refine ⟨(l.drop a).take b, ((l.drop a).drop b).take c, ((l.drop a).drop b).drop c, ?_, ?_, ?_⟩
  · rw [List.take_append_drop, List.take_append_drop, List.take_append_drop]
  · rw [List.length_take, List.length_drop]
    omega
  · rw [List.length_take, List.length_drop, List.length_drop]
    omega

/-- The call in pieces: parameters, attributes of the application and of the driver. -/
theorem Ready.pieces (h : s.Ready) (hrecords : s.paramCount ≤ s.apdCount) :
    ∃ slots islots back names inames,
      allocateParamBind s.paramBind (s.apdCount + s.attrData.length) =
          s.paramBind.take s.paramCount ++ (slots ++ (islots ++ back)) ∧
        resizeNames s.paramNames (s.apdCount + s.attrData.length) =
          List.replicate s.paramCount none ++ (names ++ inames) ∧
        slots.length = s.apdCount - s.paramCount ∧ names.length = s.apdCount - s.paramCount ∧
        islots.length = s.attrData.length ∧ inames.length = s.attrData.length := by
  have hlength := length_allocateParamBind s.paramBind (s.apdCount + s.attrData.length)
  have hnlength := length_resizeNames s.paramNames (s.apdCount + s.attrData.length)
  obtain ⟨slots, islots, back, hbinds, hslots, hislots⟩ :=
    @exists_pieces _ (allocateParamBind s.paramBind (s.apdCount + s.attrData.length)) s.paramCount
      (s.apdCount - s.paramCount) s.attrData.length (by omega)
  obtain ⟨names, inames, nback, hnames, hnames', hinames⟩ :=
    @exists_pieces _ (resizeNames s.paramNames (s.apdCount + s.attrData.length)) s.paramCount
      (s.apdCount - s.paramCount) s.attrData.length (by omega)
  have hnback : nback = [] := by
    have hsum := congrArg List.length hnames
    rw [List.length_append, List.length_append, List.length_append, List.length_take, hnlength,
      hnames', hinames] at hsum
    exact List.length_eq_zero_iff.mp (by omega)
  rw [h.take_allocateParamBind] at hbinds
  rw [h.take_resizeNames (by omega), hnback, List.append_nil] at hnames
  exact ⟨slots, islots, back, names, inames, hbinds, hnames, hslots, hnames', hislots, hinames⟩

/-- What a call has handed over when it did so. -/
theorem Ready.handed_eq (h : s.Ready) {binds : List (ParamBind × Option (List UInt8))}
    (hsuccess : s.bindQueryAttrs = .SQL_SUCCESS (some binds)) :
    ∃ slots back, s.paramCount ≤ s.apdCount ∧ slots.length = s.apdCount - s.paramCount ∧
      (s.apdCount = s.paramCount ∨ s.apdCount ≤ s.ipdCount) ∧
      (∀ i, s.paramCount ≤ i → i < s.paramCount + slots.length → (s.insertParam i).isSome) ∧
      (∀ j, j < slots.length → s.slot (s.paramCount + j) = slots[j]?) ∧
      binds = s.handed
        (s.paramBind.take s.paramCount ++
          (s.applyAll s.paramCount slots ++ (s.attrData.map InternalAttr.bind ++ back)))
        (List.replicate s.paramCount none ++
          ((List.range' s.paramCount slots.length).map s.name ++
            s.attrData.map fun attr => some attr.name)) := by
  unfold bindQueryAttrs at hsuccess
  by_cases hfew : s.apdCount < s.paramCount
  · rw [if_pos hfew] at hsuccess
    exact absurd hsuccess nofun
  rw [if_neg hfew] at hsuccess
  obtain ⟨slots, islots, back, names, inames, hbinds, hnames, hslots, hnlength, hislots, hinames⟩ :=
    h.pieces (by omega)
  have hfront : (s.paramBind.take s.paramCount).length = s.paramCount := by
    rw [List.length_take]
    exact Nat.min_eq_left h.binds
  have hslot : ∀ j, j < slots.length → s.slot (s.paramCount + j) = slots[j]? := by
    intro j hj
    rw [slot, hbinds, List.getElem?_append_right (by omega), hfront, Nat.add_sub_cancel_left,
      List.getElem?_append_left hj]
  generalize s.paramBind.take s.paramCount = front at hbinds hfront ⊢
  rw [hbinds, hnames] at hsuccess
  dsimp only at hsuccess
  cases hloop : s.bindUserAttrs (s.apdCount - s.paramCount) s.paramCount
      (front ++ (slots ++ (islots ++ back)))
      (List.replicate s.paramCount none ++ (names ++ inames)) with
  | error =>
    rw [hloop] at hsuccess
    exact absurd hsuccess nofun
  | nothingToDo =>
    rw [hloop] at hsuccess
    cases hsuccess
  | done paramBind paramNames =>
    rw [hloop] at hsuccess
    dsimp only at hsuccess
    rw [← hslots] at hloop
    conv at hloop =>
      lhs
      rw [← hfront]
    obtain ⟨hrecords, hsome, rfl, rfl⟩ := bindUserAttrs_done
      (by rw [List.length_replicate]) (by rw [hnlength, hslots]) hloop
    rw [hfront] at hrecords hsome hsuccess
    have hinternal := @bindInternalAttrs_eq s.attrData (front ++ s.applyAll s.paramCount slots)
      islots back
      (List.replicate s.paramCount none ++ (List.range' s.paramCount slots.length).map s.name)
      inames [] (by simp [hfront]) hislots hinames
    have hlength : (front ++ s.applyAll s.paramCount slots).length = s.apdCount := by
      rw [List.length_append, hfront, length_applyAll]
      omega
    rw [hlength, List.append_assoc, List.append_assoc, List.append_nil, List.append_nil,
      List.append_assoc, List.append_assoc] at hinternal
    rw [hinternal] at hsuccess
    dsimp only at hsuccess
    split_ifs at hsuccess
    · cases hsuccess
    refine ⟨slots, back, by omega, hslots, ?_, hsome, hslot, ?_⟩
    · obtain hnone | hipd := hrecords
      · left
        rw [hnone, List.length_nil] at hslots
        omega
      · right
        omega
    · exact (Option.some.inj (AttrResult.SQL_SUCCESS.inj hsuccess)).symm

/-- Binds without names. -/
theorem zip_replicate_none {front : List ParamBind} {count : ℕ} (hcount : front.length = count) :
    front.zip (List.replicate count (none : Option (List UInt8))) =
      front.map fun bind => (bind, none) := by
  subst hcount
  induction front with
  | nil => rfl
  | cons bind front ih =>
    rw [List.length_cons, List.replicate_succ, List.zip_cons_cons, ih]
    rfl

/-- All binds with their names are handed over to a server that knows attributes. -/
theorem handed_named {front binds ibinds back : List ParamBind}
    {names inames : List (Option (List UInt8))} (hnamed : s.named = true)
    (hquery : s.hasQueryAttrs = true) (hfront : front.length = s.paramCount)
    (hbinds : names.length = binds.length) (hibinds : inames.length = ibinds.length) :
    s.handed (front ++ (binds ++ (ibinds ++ back)))
        (List.replicate s.paramCount none ++ (names ++ inames)) =
      front.map (fun bind => (bind, none)) ++ (binds.zip names ++ ibinds.zip inames) := by
  have hlength : (List.replicate s.paramCount none ++ (names ++ inames)).length =
      (front ++ (binds ++ ibinds)).length := by
    simp only [List.length_append, List.length_replicate]
    omega
  have htake : (front ++ (binds ++ (ibinds ++ back))).take (front ++ (binds ++ ibinds)).length =
      front ++ (binds ++ ibinds) := by
    have hassoc : front ++ (binds ++ (ibinds ++ back)) = (front ++ (binds ++ ibinds)) ++ back := by
      simp only [List.append_assoc]
    rw [hassoc]
    exact List.take_left
  rw [handed, if_pos hnamed, boundNumber, hnamed, hquery, Bool.and_self, if_pos rfl,
    List.take_length, hlength, htake,
    List.zip_append (by rw [hfront, List.length_replicate]), List.zip_append hbinds.symm,
    zip_replicate_none hfront]

/-- Only the parameters are handed over to another server. -/
theorem handed_unnamed {front back : List ParamBind} {names : List (Option (List UInt8))}
    (hunnamed : ¬ (s.named = true ∧ s.hasQueryAttrs = true))
    (hfront : front.length = s.paramCount) :
    s.handed (front ++ back) (List.replicate s.paramCount none ++ names) =
      front.map fun bind => (bind, none) := by
  have htake : (front ++ back).take s.paramCount = front := by
    rw [← hfront]
    exact List.take_left
  have hnumber : s.boundNumber (List.replicate s.paramCount none ++ names) = s.paramCount := by
    rw [boundNumber, if_neg (by simpa using hunnamed)]
  have hnames : (List.replicate s.paramCount none ++ names).take s.paramCount =
      List.replicate s.paramCount none := List.take_left' List.length_replicate
  rw [handed, hnumber, htake, hnames, zip_replicate_none hfront, ite_self]

/-- A successful call has handed the parameters over in their order, with the attributes behind
them, exactly when every record of the APD has one of the IPD, attributes are sent at all, and
their binds keep nothing of an earlier execution. -/
theorem bindQueryAttrs_inOrder_iff (h : s.Ready) (hparams : 0 < s.paramCount)
    {handed : Option (List (ParamBind × Option (List UInt8)))}
    (hsuccess : s.bindQueryAttrs = .SQL_SUCCESS handed) :
    s.HandedInOrder handed ↔ s.AttributesReach := by
  cases handed with
  | none =>
    -- The loop has ended where a record of the IPD is missing.
    refine iff_of_false (fun hhanded => ?_) fun hreach => ?_
    · obtain ⟨binds, hnone, -⟩ := hhanded
      exact absurd hnone nofun
    · have hneed := hreach.records
      unfold bindQueryAttrs at hsuccess
      by_cases hfew : s.apdCount < s.paramCount
      · rw [if_pos hfew] at hsuccess
        exact absurd hsuccess nofun
      rw [if_neg hfew] at hsuccess
      dsimp only at hsuccess
      cases hloop : s.bindUserAttrs (s.apdCount - s.paramCount) s.paramCount
          (allocateParamBind s.paramBind (s.apdCount + s.attrData.length))
          (resizeNames s.paramNames (s.apdCount + s.attrData.length)) with
      | nothingToDo =>
        obtain ⟨hpos, hmissing⟩ := bindUserAttrs_nothingToDo hloop
        omega
      | error =>
        rw [hloop] at hsuccess
        exact absurd hsuccess nofun
      | done paramBind paramNames =>
        rw [hloop] at hsuccess
        dsimp only at hsuccess
        split_ifs at hsuccess with hnumber
        · -- The parameters alone make a number of binds.
          have hlength := bindInternalAttrs_length s.attrData s.apdCount paramBind paramNames
          rw [bindUserAttrs_length hloop, length_resizeNames] at hlength
          rw [boundNumber, hlength] at hnumber
          split_ifs at hnumber <;> omega
        · cases hsuccess
  | some binds =>
    obtain ⟨slots, back, hrecords, hslots, hipd, hsome, hslot, hbinds⟩ := h.handed_eq hsuccess
    have hfront : (s.paramBind.take s.paramCount).length = s.paramCount := by
      rw [List.length_take]
      exact Nat.min_eq_left h.binds
    have hmin : min s.apdCount s.ipdCount - s.paramCount = slots.length := by omega
    have hinOrder : s.HandedInOrder (some binds) ↔
        binds.map (fun bind => (some bind.1.sent, bind.2)) = s.supplied := by
      refine ⟨fun hhanded => ?_, fun hsame => ⟨binds, rfl, hsame⟩⟩
      obtain ⟨binds', hbinds', hsame⟩ := hhanded
      cases hbinds'
      exact hsame
    rw [hinOrder, supplied, hmin, hbinds]
    by_cases hsent : s.named = true ∧ s.hasQueryAttrs = true
    · -- Everything is handed over, and each part has to be the one that was supplied.
      have hslots' : (∀ (j : ℕ) (effect : BindEffect) (bind : ParamBind),
            s.insertParam (s.paramCount + j) = some effect → slots[j]? = some bind →
              effect.Fits bind) ↔
          ∀ (i : ℕ) (effect : BindEffect) (bind : ParamBind), s.paramCount ≤ i → i < s.apdCount →
            s.insertParam i = some effect → s.slot i = some bind → effect.Fits bind := by
        constructor
        · intro hall i effect bind hlow hhigh heffect hbind
          obtain ⟨j, rfl⟩ := Nat.exists_eq_add_of_le hlow
          exact hall j effect bind heffect (by rw [← hslot j (by omega)]; exact hbind)
        · intro hall j effect bind heffect hbind
          have hj : j < slots.length := (List.getElem?_eq_some_iff.mp hbind).1
          exact hall _ effect bind (by omega) (by omega) heffect (by rw [hslot j hj]; exact hbind)
      have hinternal : ((s.attrData.map InternalAttr.bind).zip
            (s.attrData.map fun attr => some attr.name)).map
              (fun bind => (some bind.1.sent, bind.2)) =
            s.attrData.map (fun attr => (some (some (.text attr.supplied)), some attr.name)) ↔
          ∀ attr ∈ s.attrData, attr.bind.sent = some (.text attr.supplied) := by
        rw [List.zip_map', List.map_map, List.map_inj_left]
        simp
      rw [handed_named hsent.1 hsent.2 hfront (by simp) (by simp), List.map_append, List.map_append,
        List.map_map, List.append_assoc]
      change (s.paramBind.take s.paramCount).map (fun bind => (some bind.sent, none)) ++ _ =
        (s.paramBind.take s.paramCount).map (fun bind => (some bind.sent, none)) ++ _ ↔ _
      rw [List.append_right_inj]
      constructor
      · intro hsame
        obtain ⟨hfits, hdriver⟩ := List.append_inj hsame (by simp)
        exact ⟨hipd, Or.inl hsent, hslots'.mp ((applyAll_supplied_iff hsome).mp hfits),
          hinternal.mp hdriver⟩
      · intro hreach
        rw [(applyAll_supplied_iff hsome).mpr (hslots'.mpr hreach.slots),
          hinternal.mpr hreach.internal]
    · -- Only the parameters are handed over.
      rw [handed_unnamed hsent hfront, List.map_map, List.append_assoc]
      change (s.paramBind.take s.paramCount).map (fun bind => (some bind.sent, none)) =
        (s.paramBind.take s.paramCount).map (fun bind => (some bind.sent, none)) ++ _ ↔ _
      rw [List.self_eq_append_right, List.append_eq_nil_iff, List.map_eq_nil_iff,
        List.map_eq_nil_iff, List.range'_eq_nil_iff]
      constructor
      · rintro ⟨hnone, hdriver⟩
        refine ⟨hipd, Or.inr ⟨by omega, hdriver⟩, fun i _ _ hlow hhigh => ?_, ?_⟩
        · omega
        · rw [hdriver]
          exact nofun
      · intro hreach
        obtain hnamed | ⟨hnone, hdriver⟩ := hreach.sent
        · exact absurd hnamed hsent
        · exact ⟨by omega, hdriver⟩

/-- The statement `?` with the text `1` bound to its marker. -/
def oneParameter (apdCount ipdCount : ℕ) : AttrStmt :=
  { paramCount := 1
    apdCount := apdCount
    ipdCount := ipdCount
    name := fun _ => some [0x61]
    insertParam := fun _ => some (.value (.text [0x32]))
    paramBind := [{ ParamBind.zero.bindParam (.text [0x31]) with hasPointers := true }]
    paramNames := []
    attrData := []
    named := true
    hasQueryAttrs := true
    bindFails := false }

theorem oneParameter_ready (apdCount ipdCount : ℕ) : (oneParameter apdCount ipdCount).Ready := by
  refine ⟨Nat.le_refl 1, ?_, nofun⟩
  intro bind hbind
  obtain rfl := List.mem_singleton.mp hbind
  rfl

/-- A parameter and an attribute. -/
theorem bindQueryAttrs_inOrder_2 :
    (oneParameter 2 2).HandedInOrder (some
      [({ ParamBind.zero.bindParam (.text [0x31]) with hasPointers := true }, none),
        ({ ParamBind.zero.bindParam (.text [0x32]) with hasPointers := true }, some [0x61])]) := by
  apply (bindQueryAttrs_inOrder_iff (oneParameter_ready 2 2) (by decide) rfl).mpr
  refine ⟨Or.inr (Nat.le_refl 2), Or.inl ⟨rfl, rfl⟩, ?_, nofun⟩
  intro i effect bind hlow hhigh heffect hbind
  obtain rfl : i = 1 := by
    change 1 ≤ i at hlow
    change i < 2 at hhigh
    omega
  cases heffect
  cases hbind
  rfl

/-- With a record of the APD that the IPD has not, the call succeeds and hands nothing over. -/
theorem bindQueryAttrs_loses_parameter :
    (oneParameter 2 1).bindQueryAttrs = .SQL_SUCCESS none ∧
      ¬ (oneParameter 2 1).HandedInOrder none := by
  refine ⟨rfl, ?_⟩
  rintro ⟨binds, hnone, -⟩
  exact absurd hnone nofun

end AttrStmt

end MatrixOdbc.Driver
