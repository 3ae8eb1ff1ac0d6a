import MatrixOdbc.Driver.Positioned
import MatrixOdbc.Foundations.Decimal
import MatrixOdbc.Foundations.Refinement

/-!
# The names of the cursors of a connection

`MySQLSetCursorName`, `MySQLGetCursorName` and `set_dynamic_cursor_name` of `driver/cursor.cc`, over
the statements of a connection, and the statement that `WHERE CURRENT OF` with a name goes to. A
name is given with its terminator; there is no result where bytes behind it are taken, or where a
statement is not there.
-/

namespace MatrixOdbc.Driver

/-- `SQL_CUR`. -/
def sqlCur : List UInt8 := [0x53, 0x51, 0x4c, 0x5f, 0x43, 0x55, 0x52]

/-- The name of `set_dynamic_cursor_name` for a value of `cursor_count`. -/
def dynamicCursorName (count : ℕ) : List UInt8 := sqlCur ++ Decimal.text count

/-- `MYSQL_MAX_CURSOR_LEN`. -/
def MYSQL_MAX_CURSOR_LEN : ℤ := 18

/-- `SQL_NTS`, the length of a text up to its terminator. -/
def cursorNameNts : ℤ := -3

/-- What a call returns. -/
inductive CursorReply where
  | success
  | name (text : List UInt8)
  | invalidArgument
  | invalidCursorName
  deriving DecidableEq

/-- The statements of a connection in the order of `stmt_list`, under their handles, and
`cursor_count`. -/
structure CursorDbc where
  stmtList : List (ℕ × CursorStmt)
  cursorCount : ℕ

/-- A call on a connection or one of its statements; an execution leaves a result or not. -/
inductive CursorCall where
  | allocStmt (id : ℕ)
  | dropStmt (id : ℕ)
  | execute (id : ℕ) (hasResult forwardCache : Bool)
  | setCursorName (id : ℕ) (name : Option (List UInt8)) (len : ℤ)
  | getCursorName (id : ℕ)
  deriving DecidableEq

/-- The names that a call may generate. -/
def CursorCall.generated : CursorCall → ℕ
  | .getCursorName _ => 1
  | _ => 0

/-- `MySQLSetCursorName`. The length of a text is cast to a `SQLSMALLINT`. -/
def CursorStmt.mySQLSetCursorName (s : CursorStmt) (name : Option (List UInt8)) (len : ℤ) :
    Option (CursorStmt × CursorReply) :=
  match name with
  | none => some (s, .invalidArgument)
  | some text =>
    let len := if len = cursorNameNts then (text.length : ℤ).bmod (2 ^ 16) else len
    if len < 0 then some (s, .invalidArgument)
    else if len = 0 ∨ MYSQL_MAX_CURSOR_LEN < len ∨
        startsWith text ['S', 'Q', 'L', 'C', 'U', 'R'] ∨
        startsWith text ['S', 'Q', 'L', '_', 'C', 'U', 'R'] then some (s, .invalidCursorName)
    else if text.length < len then none
    else some ({ s with name := text.take len.toNat }, .success)

namespace CursorDbc

/-- A connection without statements. -/
def new : CursorDbc := ⟨[], 0⟩

variable (c : CursorDbc)

/-- The handles in use. -/
def ids : List ℕ := c.stmtList.map (·.1)

/-- The statement of a handle is changed. -/
def update (id : ℕ) (s : CursorStmt) : CursorDbc :=
  { c with stmtList := c.stmtList.map fun e => if e.1 = id then (id, s) else e }

/-- `MySQLGetCursorName`. -/
def mySQLGetCursorName (id : ℕ) (s : CursorStmt) : CursorDbc × CursorReply :=
  if s.name = [] then
    ({ c.update id { s with name := dynamicCursorName c.cursorCount } with
      cursorCount := (c.cursorCount + 1) % 2 ^ 32 }, .name (dynamicCursorName c.cursorCount))
  else (c, .name s.name)

/-- What a call does. A handle that is in use is not given out again. -/
def step : CursorCall → Option (CursorDbc × CursorReply)
  | .allocStmt id =>
    if id ∈ c.ids then none
    else some ({ c with stmtList := c.stmtList ++ [(id, ⟨false, [], false⟩)] }, .success)
  | .dropStmt id => (c.stmtList.lookup id).map fun _ =>
    ({ c with stmtList := c.stmtList.filter (·.1 ≠ id) }, .success)
  | .execute id hasResult forwardCache => (c.stmtList.lookup id).map fun s =>
    (c.update id { s with hasResult := hasResult, forwardCache := forwardCache }, .success)
  | .setCursorName id name len => (c.stmtList.lookup id).bind fun s =>
    (s.mySQLSetCursorName name len).map fun (s, reply) => (c.update id s, reply)
  | .getCursorName id => (c.stmtList.lookup id).map fun s => c.mySQLGetCursorName id s

/-- The statement that a name in `WHERE CURRENT OF` goes to. -/
def lookup (name : List UInt8) : Option ℕ :=
  (c.stmtList.find? fun e =>
    e.2.hasResult && e.2.name ≠ [] && strcaseEq e.2.name name).map (·.1)

end CursorDbc

/-- What `MySQLSetCursorName` accepts. -/
def ChosenName (name : List UInt8) : Prop :=
  name ≠ [] ∧ ¬ sqlCur <+: name.map toupper

theorem startsWith_sqlCur {text : List UInt8} :
    startsWith text ['S', 'Q', 'L', '_', 'C', 'U', 'R'] = true ↔ sqlCur <+: text.map toupper :=
  List.isPrefixOf_iff_prefix

/-- A name that is accepted does not begin as a generated one. -/
theorem CursorStmt.chosenName_of_set {s s' : CursorStmt} {name : Option (List UInt8)} {len : ℤ}
    {reply : CursorReply} (h : s.mySQLSetCursorName name len = some (s', reply)) :
    s'.name = s.name ∨ ChosenName s'.name := by
  cases name with
  | none =>
    cases h
    exact Or.inl rfl
  | some text =>
    unfold mySQLSetCursorName at h
    dsimp only at h
    generalize (if len = cursorNameNts then (text.length : ℤ).bmod (2 ^ 16) else len) = l at h
    split_ifs at h with hneg hbad hlong
    · cases h
      exact Or.inl rfl
    · cases h
      exact Or.inl rfl
    · cases h
      right
      simp only [not_or] at hbad
      obtain ⟨hzero, -, -, hprefix⟩ := hbad
      refine ⟨fun hnil => ?_, fun hstarts => hprefix (startsWith_sqlCur.mpr ?_)⟩
      · have hlength := congrArg List.length hnil
        rw [List.length_take, List.length_nil] at hlength
        omega
      · rw [List.map_take] at hstarts
        exact hstarts.trans (List.take_prefix _ _)

theorem toupper_of_isDigit {c : UInt8} (h : Decimal.IsDigit c) : toupper c = c := by
  have hlt : ¬ (0x61 ≤ c ∧ c ≤ 0x7a) := fun hand => by
    have := UInt8.le_iff_toNat_le.mp hand.1
    have := h.2
    simp at *
    omega
  exact if_neg hlt

theorem map_toupper_dynamicCursorName (count : ℕ) :
    (dynamicCursorName count).map toupper = dynamicCursorName count := by
  rw [dynamicCursorName, List.map_append]
  congr 1
  exact (List.map_congr_left fun c hc => toupper_of_isDigit (Decimal.isDigit_text hc)).trans
    (List.map_id _)

theorem dynamicCursorName_injective : Function.Injective dynamicCursorName := by
  intro m n h
  have htext := congrArg Decimal.value (List.append_cancel_left h)
  rwa [Decimal.value_text, Decimal.value_text] at htext

/-- A chosen name is never taken for a generated one. -/
theorem ChosenName.strcaseEq_dynamic {name : List UInt8} (h : ChosenName name) (count : ℕ) :
    strcaseEq name (dynamicCursorName count) = false := by
  rw [strcaseEq, map_toupper_dynamicCursorName, beq_eq_false_iff_ne]
  intro heq
  exact h.2 (heq ▸ List.prefix_append sqlCur _)

namespace CursorDbc

variable {c c' : CursorDbc} {id n : ℕ} {s : CursorStmt}

/-- After so many names were generated: what each name is, and that no two statements have one
generated name. -/
structure Named (c : CursorDbc) (n : ℕ) : Prop where
  count : c.cursorCount = n % 2 ^ 32
  ids : c.ids.Nodup
  names : ∀ e ∈ c.stmtList, e.2.name = [] ∨ ChosenName e.2.name ∨
    ∃ k < n, e.2.name = dynamicCursorName k
  distinct : ∀ e ∈ c.stmtList, ∀ e' ∈ c.stmtList, ∀ k,
    e.2.name = dynamicCursorName k → e'.2.name = dynamicCursorName k → e.1 = e'.1

theorem Named.new : new.Named 0 where
  count := rfl
  ids := List.nodup_nil
  names _ he := absurd he List.not_mem_nil
  distinct _ he := absurd he List.not_mem_nil

theorem mem_update {e : ℕ × CursorStmt} (h : e ∈ (c.update id s).stmtList) :
    e = (id, s) ∨ e ∈ c.stmtList ∧ e.1 ≠ id := by
  obtain ⟨e', he', heq⟩ := List.mem_map.mp h
  split_ifs at heq with hid
  · exact Or.inl heq.symm
  · exact Or.inr ⟨heq ▸ he', heq ▸ hid⟩

theorem ids_update : (c.update id s).ids = c.ids := by
  rw [ids, update, List.map_map]
  refine List.map_congr_left fun e _ => ?_
  rw [Function.comp_apply]
  split_ifs with hid
  · exact hid.symm
  · rfl

theorem mem_of_lookup (h : c.stmtList.lookup id = some s) : (id, s) ∈ c.stmtList := by
  obtain ⟨before, after, hlist, -⟩ := List.lookup_eq_some_iff.mp h
  rw [hlist]
  exact List.mem_append_right before List.mem_cons_self

/-- A statement is changed that keeps its name or is given one by the application. -/
theorem Named.update (h : c.Named n) {s' : CursorStmt} (hs : (id, s) ∈ c.stmtList)
    (hname : s'.name = s.name ∨ ChosenName s'.name) : (c.update id s').Named n where
  count := h.count
  ids := (@ids_update c id s').symm ▸ h.ids
  names e he := by
    obtain rfl | ⟨hmem, -⟩ := mem_update he
    · obtain hsame | hchosen := hname
      · exact hsame ▸ h.names _ hs
      · exact Or.inr (Or.inl hchosen)
    · exact h.names e hmem
  distinct := by
    -- a chosen name is not generated, and one that is kept is that of the statement before
    have hbefore : ∀ e ∈ (c.update id s').stmtList, ∀ k, e.2.name = dynamicCursorName k →
        ∃ e' ∈ c.stmtList, e'.1 = e.1 ∧ e'.2.name = dynamicCursorName k := by
      intro e he k hk
      obtain rfl | ⟨hmem, -⟩ := mem_update he
      · obtain hsame | hchosen := hname
        · exact ⟨(id, s), hs, rfl, hsame ▸ hk⟩
        · have hno := hchosen.strcaseEq_dynamic k
          rw [show s'.name = _ from hk, strcaseEq, beq_self_eq_true] at hno
          cases hno
      · exact ⟨e, hmem, rfl, hk⟩
    intro e he e' he' k hk hk'
    obtain ⟨f, hf, hid, hfk⟩ := hbefore e he k hk
    obtain ⟨f', hf', hid', hfk'⟩ := hbefore e' he' k hk'
    exact hid.symm.trans ((h.distinct f hf f' hf' k hfk hfk').trans hid')

/-- A statement is given the next generated name. -/
theorem Named.generate (h : c.Named n) (hn : n < 2 ^ 32) :
    Named { c.update id { s with name := dynamicCursorName c.cursorCount } with
      cursorCount := (c.cursorCount + 1) % 2 ^ 32 } (n + 1) := by
  have hcount : c.cursorCount = n := h.count.trans (Nat.mod_eq_of_lt hn)
  have hfresh : ∀ e ∈ c.stmtList, e.2.name ≠ dynamicCursorName n := by
    intro e he heq
    obtain hnil | hchosen | ⟨k, hk, hname⟩ := h.names e he
    · cases hnil.symm.trans heq
    · have hno := hchosen.strcaseEq_dynamic n
      rw [heq, strcaseEq, beq_self_eq_true] at hno
      cases hno
    · exact absurd (dynamicCursorName_injective (hname.symm.trans heq)) (Nat.ne_of_lt hk)
  rw [hcount]
  refine ⟨rfl, (@ids_update c id { s with name := dynamicCursorName n }).symm ▸ h.ids, ?_, ?_⟩
  · intro e he
    obtain rfl | ⟨hmem, -⟩ := mem_update he
    · exact Or.inr (Or.inr ⟨n, Nat.lt_succ_self n, rfl⟩)
    · refine (h.names e hmem).imp_right (Or.imp_right (Exists.imp fun k hk => ?_))
      exact ⟨hk.1.trans (Nat.lt_succ_self n), hk.2⟩
  · intro e he e' he' k hk hk'
    obtain rfl | ⟨hmem, -⟩ := mem_update he <;> obtain rfl | ⟨hmem', -⟩ := mem_update he'
    · rfl
    · obtain rfl := dynamicCursorName_injective hk
      exact absurd hk' (hfresh e' hmem')
    · obtain rfl := dynamicCursorName_injective hk'
      exact absurd hk (hfresh e hmem)
    · exact h.distinct e hmem e' hmem' k hk hk'

/-- What is known of the names is known after a call. -/
theorem Named.step (h : c.Named n) {call : CursorCall} {reply : CursorReply}
    (hn : n + call.generated ≤ 2 ^ 32) (hstep : c.step call = some (c', reply)) :
    ∃ m ≤ n + call.generated, c'.Named m := by
  cases call with
  | allocStmt id =>
    rw [CursorDbc.step] at hstep
    split_ifs at hstep with hid
    cases hstep
    have hmem : ∀ e ∈ c.stmtList ++ [(id, CursorStmt.mk false [] false)],
        e ∈ c.stmtList ∨ e.2.name = [] := by
      intro e he
      obtain he | he := List.mem_append.mp he
      · exact Or.inl he
      · obtain rfl := List.mem_singleton.mp he
        exact Or.inr rfl
    have hno : ∀ {e : ℕ × CursorStmt} {k}, e.2.name = [] → e.2.name ≠ dynamicCursorName k := by
      intro e k hnil hk
      cases hnil.symm.trans hk
    refine ⟨n, le_rfl, h.count, ?_, fun e he => ?_, fun e he e' he' k hk hk' => ?_⟩
    · rw [CursorDbc.ids, List.map_append]
      exact h.ids.append (List.nodup_singleton id) (List.disjoint_singleton.mpr hid)
    · exact (hmem e he).elim (h.names e) Or.inl
    · obtain he | he := hmem e he
      · obtain he' | he' := hmem e' he'
        · exact h.distinct e he e' he' k hk hk'
        · exact absurd hk' (hno he')
      · exact absurd hk (hno he)
  | dropStmt id =>
    obtain ⟨s, -, heq⟩ := Option.map_eq_some_iff.mp hstep
    cases heq
    refine ⟨n, le_rfl, h.count, ?_, ?_, ?_⟩
    · exact h.ids.sublist (List.filter_sublist.map _)
    · exact fun e he => h.names e (List.mem_of_mem_filter he)
    · intro e he e' he'
      exact h.distinct e (List.mem_of_mem_filter he) e' (List.mem_of_mem_filter he')
  | execute id hasResult forwardCache =>
    obtain ⟨s, hs, heq⟩ := Option.map_eq_some_iff.mp hstep
    cases heq
    exact ⟨n, le_rfl, h.update (mem_of_lookup hs) (Or.inl rfl)⟩
  | setCursorName id name len =>
    obtain ⟨s, hs, hset⟩ := Option.bind_eq_some_iff.mp hstep
    obtain ⟨⟨s', reply'⟩, hset, heq⟩ := Option.map_eq_some_iff.mp hset
    cases heq
    exact ⟨n, le_rfl, h.update (mem_of_lookup hs) (CursorStmt.chosenName_of_set hset)⟩
  | getCursorName id =>
    obtain ⟨s, -, heq⟩ := Option.map_eq_some_iff.mp hstep
    unfold mySQLGetCursorName at heq
    split_ifs at heq
    · cases heq
      exact ⟨n + 1, le_rfl, h.generate hn⟩
    · cases heq
      exact ⟨n, Nat.le_succ n, h⟩

/-- What is known of the names is known after a run. -/
theorem Named.run (h : c.Named n) {calls : List CursorCall} {replies : List CursorReply}
    (hn : n + (calls.map CursorCall.generated).sum ≤ 2 ^ 32)
    (hrun : Refinement.run CursorDbc.step c calls = some (c', replies)) : ∃ m, c'.Named m := by
  induction calls generalizing c n replies with
  | nil =>
    cases hrun
    exact ⟨n, h⟩
  | cons call calls ih =>
    rw [List.map_cons, List.sum_cons] at hn
    obtain ⟨c₁, reply, replies', hstep, hrest, -⟩ := Refinement.run_cons_eq_some hrun
    obtain ⟨m, hm, hnamed⟩ := h.step (by omega) hstep
    exact ih hnamed (by omega) hrest

/-- A text that names a cursor goes to the statement that is found. -/
theorem checkIfPositionedCursorExists_map {pq : ParsedQuery} {off : ℕ}
    (hname : pq.getCursorName = some off) :
    ((checkIfPositionedCursorExists (c.stmtList.map (·.2)) pq).map (·.found)) =
      some (c.lookup (cString pq.query off)).isSome ∧
    ∀ id, c.lookup (cString pq.query off) = some id → ∃ s, (id, s) ∈ c.stmtList ∧
      (checkIfPositionedCursorExists (c.stmtList.map (·.2)) pq).bind (·.cursor) = some s := by
  unfold checkIfPositionedCursorExists lookup
  rw [hname, Option.map_some]
  dsimp only
  rw [List.find?_map]
  dsimp only [Function.comp_def]
  cases hfind : c.stmtList.find? fun e =>
      e.2.hasResult && e.2.name ≠ [] && strcaseEq e.2.name (cString pq.query off) with
  | none => exact ⟨rfl, fun id h => by cases h⟩
  | some e =>
    refine ⟨rfl, fun id h => ⟨e.2, ?_, rfl⟩⟩
    cases h
    exact List.mem_of_find?_eq_some hfind

/-- The statement with a result that comes first of those of one name is found. -/
theorem lookup_iff_of_ids (hids : c.ids.Nodup) {before after : List (ℕ × CursorStmt)}
    (hlist : c.stmtList = before ++ (id, s) :: after) (hresult : s.hasResult = true)
    (hname : s.name ≠ []) : c.lookup s.name = some id ↔
      ∀ e ∈ before, e.2.hasResult = true → strcaseEq e.2.name s.name = false := by
  have hself : (s.hasResult && s.name ≠ [] && strcaseEq s.name s.name) = true := by
    simp [hresult, hname, strcaseEq]
  rw [lookup, hlist, List.find?_append, List.find?_cons, hself]
  cases hfind : before.find? fun e =>
      e.2.hasResult && e.2.name ≠ [] && strcaseEq e.2.name s.name with
  | none =>
    refine iff_of_true rfl fun e he hres => eq_false_of_ne_true fun hsame => ?_
    have hno := List.find?_eq_none.mp hfind e he
    have hnil : e.2.name ≠ [] := by
      intro hnil
      rw [hnil, strcaseEq, beq_iff_eq] at hsame
      exact hname (List.map_eq_nil_iff.mp hsame.symm)
    simp [hres, hnil, hsame] at hno
  | some e =>
    have hmem := List.mem_of_find?_eq_some hfind
    have hfound := List.find?_some hfind
    simp only [Bool.and_eq_true] at hfound
    refine iff_of_false (fun h => ?_) fun h => ?_
    · have hid : e.1 = id := Option.some.inj h
      rw [ids, hlist, List.map_append, List.map_cons, List.nodup_append] at hids
      exact hids.2.2 e.1 (List.mem_map_of_mem hmem) id List.mem_cons_self hid
    · exact Bool.false_ne_true ((h e hmem hfound.1.1).symm.trans hfound.2)

/-- In every run in which no more names are generated than `cursor_count` has values, a name that
was generated goes to its statement, and another one to its statement exactly when no earlier
statement with a result has that name. -/
theorem run_lookup_iff {calls : List CursorCall} {replies : List CursorReply}
    {before after : List (ℕ × CursorStmt)}
    (hcalls : (calls.map CursorCall.generated).sum ≤ 2 ^ 32)
    (hrun : Refinement.run step new calls = some (c, replies))
    (hlist : c.stmtList = before ++ (id, s) :: after) (hresult : s.hasResult = true)
    (hname : s.name ≠ []) : c.lookup s.name = some id ↔
      (∃ count, s.name = dynamicCursorName count) ∨
        ∀ e ∈ before, e.2.hasResult = true → strcaseEq e.2.name s.name = false := by
  obtain ⟨m, h⟩ := Named.new.run (by omega) hrun
  rw [lookup_iff_of_ids h.ids hlist hresult hname]
  refine ⟨Or.inr, fun hor => hor.elim (fun hgen e he _ => ?_) fun h => h⟩
  obtain ⟨count, hcount⟩ := hgen
  have hmem : (id, s) ∈ c.stmtList := hlist ▸ List.mem_append_right before List.mem_cons_self
  have hmem' : e ∈ c.stmtList := hlist ▸ List.mem_append_left _ he
  rw [hcount]
  obtain hnil | hchosen | ⟨k, -, hk⟩ := h.names e hmem'
  · rw [hnil]
    rfl
  · exact hchosen.strcaseEq_dynamic count
  · refine eq_false_of_ne_true fun hsame => ?_
    rw [hk, strcaseEq, map_toupper_dynamicCursorName, map_toupper_dynamicCursorName,
      beq_iff_eq] at hsame
    have hid := h.distinct e hmem' (id, s) hmem k hk (hcount.trans hsame.symm)
    have hids := h.ids
    rw [ids, hlist, List.map_append, List.map_cons, List.nodup_append] at hids
    exact hids.2.2 e.1 (List.mem_map_of_mem he) id List.mem_cons_self hid

/-- Two statements, the second of which takes the generated name of the first in lower case, which
is refused, and then a name of its own. -/
def cursorCalls : List CursorCall :=
  [.allocStmt 1, .allocStmt 2, .getCursorName 1, .execute 1 true false, .execute 2 true false,
    .setCursorName 2 (some [0x73, 0x71, 0x6c, 0x5f, 0x63, 0x75, 0x72, 0x30]) (-3),
    .setCursorName 2 (some [0x63, 0x31]) 2]

theorem run_lookup_iff_cursorCalls : ∃ c replies,
    Refinement.run step new cursorCalls = some (c, replies) ∧
      (c.lookup (dynamicCursorName 0) = some 1 ↔
        (∃ count, dynamicCursorName 0 = dynamicCursorName count) ∨
          ∀ e ∈ ([] : List (ℕ × CursorStmt)), e.2.hasResult = true →
            strcaseEq e.2.name (dynamicCursorName 0) = false) := by
  let first : CursorStmt := ⟨true, dynamicCursorName 0, false⟩
  let second : CursorStmt := ⟨true, [0x63, 0x31], false⟩
  have hrun : Refinement.run step new cursorCalls = some (⟨[] ++ (1, first) :: [(2, second)], 1⟩,
      [.success, .success, .name (dynamicCursorName 0), .success, .success, .invalidCursorName,
        .success]) := rfl
  have hname : first.name ≠ [] := List.cons_ne_nil _ _
  exact ⟨_, _, hrun, run_lookup_iff (by decide) hrun rfl rfl hname⟩

end CursorDbc

end MatrixOdbc.Driver
