import MatrixOdbc.Driver.Handles

/-!
# What the handles are for

What an application may rely on: which objects there are, which connection a statement or a
descriptor belongs to, and which descriptor a statement uses. Nothing here has a list.
-/

namespace MatrixOdbc.Driver

open MyodbcErrid

/-- A statement: its connection and the application descriptors it uses. -/
structure StmtView where
  dbc : ℕ
  app : AppSlot → DescPtr

/-- A descriptor of the application: its connection and what it is used for. -/
structure DescView where
  dbc : ℕ
  descType : DescDescType

/-- The objects there are, and the next handle. -/
@[ext] structure HandleView where
  next : ℕ
  envs : Store ℕ ℤ
  dbcs : Store ℕ ℕ
  stmts : Store ℕ StmtView
  descs : Store ℕ DescView

namespace HandleView

/-- The descriptor exists. -/
def Live (v : HandleView) : DescPtr → Prop
  | .own s _ => v.stmts s ≠ none
  | .user d => v.descs d ≠ none

/-- The statement is one of the connection. -/
def StmtOf (v : HandleView) (c s : ℕ) : Prop := ∃ st, v.stmts s = some st ∧ st.dbc = c

/-- The descriptor is one of the connection. -/
def DescOf (v : HandleView) (c d : ℕ) : Prop := ∃ desc, v.descs d = some desc ∧ desc.dbc = c

/-- The statement uses the descriptor. -/
def Uses (v : HandleView) (d s : ℕ) : Prop :=
  ∃ st slot, v.stmts s = some st ∧ st.app slot = .user d

/-- Why a statement of a connection cannot use a descriptor. -/
def refusal (v : HandleView) (s c : ℕ) (slot : AppSlot) : DescPtr → Option HandleError
  | .own s' kind =>
    if s' ≠ s then
      some ⟨MYERR_S1017, "Invalid use of an automatically allocated descriptor handle"⟩
    else if kind.descType ≠ slot.descType then some ⟨MYERR_S1024, "Descriptor type mismatch"⟩
    else none
  | .user d => (v.descs d).bind fun desc =>
    if c ≠ desc.dbc then some ⟨MYERR_S1024, "Invalid attribute value"⟩
    else if desc.descType ≠ .unknown ∧ desc.descType ≠ slot.descType then
      some ⟨MYERR_S1024, "Descriptor type mismatch"⟩
    else none

/-- The statements of a connection are gone. -/
def dropStmts (v : HandleView) (c : ℕ) : HandleView :=
  { v with stmts := fun s => (v.stmts s).filter (·.dbc ≠ c) }

/-- The descriptors of a connection are gone. -/
def dropDescs (v : HandleView) (c : ℕ) : HandleView :=
  { v with descs := fun d => (v.descs d).filter (·.dbc ≠ c) }

/-- A statement uses a descriptor. -/
def setApp (v : HandleView) (s : ℕ) (slot : AppSlot) (p : DescPtr) : HandleView :=
  { v with stmts := Function.update v.stmts s ((v.stmts s).map fun st =>
      { st with app := Function.update st.app slot p }) }

/-- What a descriptor of the application is used for. -/
def setType (v : HandleView) (p : DescPtr) (descType : DescDescType) : HandleView :=
  match p with
  | .own _ _ => v
  | .user d => { v with descs := Function.update v.descs d ((v.descs d).map fun desc =>
      { desc with descType := descType }) }

/-- Statements that use a descriptor use their own again. -/
def detach (v : HandleView) (d : ℕ) : HandleView :=
  { v with stmts := fun s => (v.stmts s).map fun st =>
      { st with app := fun slot =>
          if st.app slot = .user d then .own s slot.imp else st.app slot } }

/-- What is used for what is copied from one descriptor of the application to another. -/
def copyType (v : HandleView) : DescPtr → DescPtr → HandleView
  | .user d, .user d' => v.setType (.user d') ((v.descs d).elim .unknown (·.descType))
  | _, _ => v

/-- The error of a copy. -/
def copyError (src dest : DescPtr) (prepared : Bool) : Option HandleError :=
  match src, dest, prepared with
  | _, .own _ .ird, _ => some ⟨MYERR_S1016, "Cannot modify an implementation row descriptor"⟩
  | .own _ .ird, _, false => some ⟨MYERR_S1007, "Associated statement is not prepared"⟩
  | _, _, _ => none

open Classical in
/-- What a call does and what it returns. -/
noncomputable def step (v : HandleView) : HandleCall → HandleView × HandleReply
  | .allocEnv =>
    ({ v with next := v.next + 1, envs := v.envs.put v.next SQL_OV_ODBC3_80 }, .handle v.next)
  | .freeEnv e => ({ v with envs := v.envs.drop e }, .success)
  | .setEnvAttr e attr value =>
    if ∃ c, v.dbcs c = some e then (v, .error ⟨MYERR_S1010, none⟩)
    else
      let (odbcVer, reply) := Handles.envAttr attr value ((v.envs e).getD 0)
      ({ v with envs := v.envs.put e odbcVer }, reply)
  | .allocConnect e =>
    if v.envs e = some 0 then
      (v, .error ⟨MYERR_S1010, "Can't allocate connection until ODBC version specified."⟩)
    else ({ v with next := v.next + 1, dbcs := v.dbcs.put v.next e }, .handle v.next)
  | .freeConnect c => ({ v.dropDescs c with dbcs := v.dbcs.drop c }, .success)
  | .disconnect c => (v.dropStmts c, .success)
  | .resetConnection c => ((v.dropStmts c).dropDescs c, .success)
  | .allocStmt c =>
    ({ v with
      next := v.next + 1
      stmts := v.stmts.put v.next ⟨c, fun slot => .own v.next slot.imp⟩ }, .handle v.next)
  | .dropStmt s => ({ v with stmts := v.stmts.drop s }, .success)
  | .allocDesc c =>
    ({ v with next := v.next + 1, descs := v.descs.put v.next ⟨c, .unknown⟩ }, .handle v.next)
  | .freeDesc (.own _ _) =>
    (v, .error ⟨MYERR_S1017, "Invalid use of an automatically allocated descriptor handle."⟩)
  | .freeDesc (.user d) => ({ v.detach d with descs := v.descs.drop d }, .success)
  | .setAppDesc s slot none => (v.setApp s slot (.own s slot.imp), .success)
  | .setAppDesc s slot (some p) =>
    match (v.stmts s).bind fun st => v.refusal s st.dbc slot p with
    | some e => (v, .error e)
    | none => ((v.setType p slot.descType).setApp s slot p, .success)
  | .getAppDesc s slot =>
    (v, (v.stmts s).elim .success fun st => .descriptor (st.app slot))
  | .copyDesc src dest prepared =>
    match copyError src dest prepared with
    | some e => (v, .error e)
    | none => (v.copyType src dest, .success)

/-- What the driver manager and the application promise: handles are those of objects that exist,
an environment is freed when it has no connection, and a connection when it has no statement. -/
def Legal (v : HandleView) : HandleCall → Prop
  | .allocEnv => True
  | .freeEnv e => v.envs e ≠ none ∧ ∀ c, v.dbcs c ≠ some e
  | .setEnvAttr e _ _ => v.envs e ≠ none
  | .allocConnect e => v.envs e ≠ none
  | .freeConnect c => v.dbcs c ≠ none ∧ ∀ s, ¬ v.StmtOf c s
  | .disconnect c => v.dbcs c ≠ none
  | .resetConnection c => v.dbcs c ≠ none
  | .allocStmt c => v.dbcs c ≠ none
  | .dropStmt s => v.stmts s ≠ none
  | .allocDesc c => v.dbcs c ≠ none
  | .freeDesc p => v.Live p
  | .setAppDesc s _ value => v.stmts s ≠ none ∧ ∀ p, value = some p → v.Live p
  | .getAppDesc s _ => v.stmts s ≠ none
  | .copyDesc src dest _ => v.Live src ∧ v.Live dest

/-- A descriptor that replaces one of the application in a statement is accepted. -/
def Accepted (v : HandleView) (s : ℕ) (slot : AppSlot) (p : DescPtr) : Prop :=
  ∀ st d, v.stmts s = some st → st.app slot = .user d → v.refusal s st.dbc slot p = none

/-- A descriptor is copied to itself, or both are descriptors of the application, of one
connection, that no statement uses. -/
def CopyHarmless (v : HandleView) (src dest : DescPtr) : Prop :=
  src = dest ∨ ∃ d d' c, src = .user d ∧ dest = .user d' ∧ v.DescOf c d ∧ v.DescOf c d' ∧
    (∀ s, ¬ v.Uses d s) ∧ ∀ s, ¬ v.Uses d' s

/-- The calls that keep the lists of the driver right. -/
def Harmless (v : HandleView) : HandleCall → Prop
  | .setAppDesc s slot (some p) => v.Accepted s slot p
  | .copyDesc src dest prepared => copyError src dest prepared = none → v.CopyHarmless src dest
  | _ => True

/-- A statement of a connection may use the descriptor. -/
def Fits (v : HandleView) (s c : ℕ) (slot : AppSlot) : DescPtr → Prop
  | .own s' kind => s' = s ∧ kind.descType = slot.descType
  | .user d => v.descs d = some ⟨c, slot.descType⟩

/-- Every object belongs to one that exists, and a statement uses descriptors that it may use. -/
structure Ok (v : HandleView) : Prop where
  dbcs : ∀ c e, v.dbcs c = some e → v.envs e ≠ none
  stmts : ∀ s st, v.stmts s = some st → v.dbcs st.dbc ≠ none
  app : ∀ s st, v.stmts s = some st → ∀ slot, v.Fits s st.dbc slot (st.app slot)
  descs : ∀ d desc, v.descs d = some desc → v.dbcs desc.dbc ≠ none
  fresh : ∀ n, v.next ≤ n → v.envs n = none ∧ v.dbcs n = none ∧ v.stmts n = none ∧ v.descs n = none

variable {v : HandleView} {s c d : ℕ} {slot : AppSlot} {p : DescPtr}

/-- The handle that is given out next is no object yet. -/
theorem Ok.next_none (h : v.Ok) : v.envs v.next = none ∧ v.dbcs v.next = none ∧
    v.stmts v.next = none ∧ v.descs v.next = none :=
  h.fresh v.next (Nat.le_refl _)

/-- The connection of a statement's descriptor is its own. -/
theorem Ok.uses (h : v.Ok) (huses : v.Uses d s) : ∃ st slot, v.stmts s = some st ∧
    st.app slot = .user d ∧ v.descs d = some ⟨st.dbc, slot.descType⟩ := by
  obtain ⟨st, slot, hs, hslot⟩ := huses
  have hfits := h.app s st hs slot
  rw [hslot] at hfits
  exact ⟨st, slot, hs, hslot, hfits⟩

theorem imp_descType (slot : AppSlot) : slot.imp.descType = slot.descType := by
  cases slot <;> rfl

theorem stmts_setType {descType : DescDescType} : (v.setType p descType).stmts = v.stmts := by
  cases p <;> rfl

/-- Setting what a descriptor is used for deletes none. -/
theorem live_setType {q : DescPtr} {descType : DescDescType} :
    (v.setType p descType).Live q ↔ v.Live q := by
  cases q with
  | own s' kind => rw [Live, Live, stmts_setType]
  | user d =>
    cases p with
    | own s' kind => rfl
    | user d' =>
      change Function.update v.descs d' _ d ≠ none ↔ v.descs d ≠ none
      rw [Function.update_apply]
      split_ifs with heq
      · rw [heq, Ne, Option.map_eq_none_iff]
      · rfl

/-- Nor does setting which descriptor a statement uses. -/
theorem live_setApp {q : DescPtr} : (v.setApp s slot p).Live q ↔ v.Live q := by
  cases q with
  | own s' kind =>
    change Function.update v.stmts s _ s' ≠ none ↔ v.stmts s' ≠ none
    rw [Function.update_apply]
    split_ifs with heq
    · rw [heq, Ne, Option.map_eq_none_iff]
    · rfl
  | user d => rfl

theorem stmts_detach_eq_none : (v.detach d).stmts s = none ↔ v.stmts s = none :=
  Option.map_eq_none_iff

/-- A descriptor that is not refused fits when it is used for what the attribute says. -/
theorem fits_of_refusal (hlive : v.Live p) (h : v.refusal s c slot p = none) :
    (v.setType p slot.descType).Fits s c slot p := by
  cases p with
  | own s' kind =>
    simp only [refusal] at h
    split_ifs at h with hs hkind
    exact ⟨not_not.mp hs, not_not.mp hkind⟩
  | user d =>
    obtain ⟨desc, hd⟩ := Option.ne_none_iff_exists'.mp hlive
    rw [refusal, hd, Option.bind_some] at h
    split_ifs at h with hc
    rw [not_not] at hc
    simp [setType, Fits, hd, hc]

/-- Environments may be added, and those without connections deleted. -/
theorem Ok.withEnvs (h : v.Ok) {envs : Store ℕ ℤ} {next : ℕ}
    (henvs : ∀ c e, v.dbcs c = some e → envs e ≠ none) (hnext : v.next ≤ next)
    (hfresh : ∀ n, next ≤ n → envs n = none) : { v with envs := envs, next := next }.Ok where
  dbcs := henvs
  stmts := h.stmts
  app := h.app
  descs := h.descs
  fresh n hn := ⟨hfresh n hn, (h.fresh n (hnext.trans hn)).2⟩

/-- A connection is added. -/
theorem Ok.addDbc (h : v.Ok) {e : ℕ} (he : v.envs e ≠ none) :
    { v with next := v.next + 1, dbcs := v.dbcs.put v.next e }.Ok where
  dbcs c e' hc := by
    dsimp only at hc ⊢
    rw [Store.put_apply] at hc
    split_ifs at hc with hnew
    · cases hc
      exact he
    · exact h.dbcs c e' hc
  stmts s st hs := by
    have hst := h.stmts s st hs
    have hne : st.dbc ≠ v.next := fun heq => hst (heq ▸ h.next_none.2.1)
    dsimp only
    rwa [Store.put_of_ne hne]
  app := h.app
  descs d desc hd := by
    have hdesc := h.descs d desc hd
    have hne : desc.dbc ≠ v.next := fun heq => hdesc (heq ▸ h.next_none.2.1)
    dsimp only
    rwa [Store.put_of_ne hne]
  fresh n hn := by
    dsimp only at hn ⊢
    obtain ⟨henv, hdbc, hstmt, hdesc⟩ := h.fresh n (by omega)
    refine ⟨henv, ?_, hstmt, hdesc⟩
    rw [Store.put_of_ne (by omega), hdbc]

/-- A statement is added; it uses its own descriptors. -/
theorem Ok.addStmt (h : v.Ok) (hc : v.dbcs c ≠ none) :
    { v with
      next := v.next + 1
      stmts := v.stmts.put v.next ⟨c, fun slot => .own v.next slot.imp⟩ }.Ok where
  dbcs := h.dbcs
  stmts s st hs := by
    dsimp only at hs ⊢
    rw [Store.put_apply] at hs
    split_ifs at hs with hnew
    · cases hs
      exact hc
    · exact h.stmts s st hs
  app s st hs slot := by
    dsimp only at hs ⊢
    rw [Store.put_apply] at hs
    split_ifs at hs with hnew
    · cases hs
      exact ⟨hnew.symm, imp_descType slot⟩
    · exact h.app s st hs slot
  descs := h.descs
  fresh n hn := by
    dsimp only at hn ⊢
    obtain ⟨henv, hdbc, hstmt, hdesc⟩ := h.fresh n (by omega)
    refine ⟨henv, hdbc, ?_, hdesc⟩
    rw [Store.put_of_ne (by omega), hstmt]

/-- A descriptor of the application is added. -/
theorem Ok.addDesc (h : v.Ok) (hc : v.dbcs c ≠ none) :
    { v with next := v.next + 1, descs := v.descs.put v.next ⟨c, .unknown⟩ }.Ok where
  dbcs := h.dbcs
  stmts := h.stmts
  app s st hs slot := by
    have hfits := h.app s st hs slot
    cases hp : st.app slot with
    | own s' kind =>
      rw [hp] at hfits
      exact hfits
    | user d =>
      rw [hp] at hfits
      have hne : d ≠ v.next := by
        rintro rfl
        rw [Fits, h.next_none.2.2.2] at hfits
        cases hfits
      exact (Store.put_of_ne hne).trans hfits
  descs d desc hd := by
    dsimp only at hd ⊢
    rw [Store.put_apply] at hd
    split_ifs at hd with hnew
    · cases hd
      exact hc
    · exact h.descs d desc hd
  fresh n hn := by
    dsimp only at hn ⊢
    obtain ⟨henv, hdbc, hstmt, hdesc⟩ := h.fresh n (by omega)
    refine ⟨henv, hdbc, hstmt, ?_⟩
    rw [Store.put_of_ne (by omega), hdesc]

/-- Statements may be deleted, and those that are left may use other descriptors that fit. -/
theorem Ok.withStmts (h : v.Ok) {stmts : Store ℕ StmtView}
    (hstmts : ∀ s st', stmts s = some st' → ∃ st, v.stmts s = some st ∧ st'.dbc = st.dbc ∧
      ∀ slot, v.Fits s st.dbc slot (st'.app slot)) : { v with stmts := stmts }.Ok where
  dbcs := h.dbcs
  stmts s st' hs := by
    obtain ⟨st, hst, hdbc, -⟩ := hstmts s st' hs
    dsimp only
    rw [hdbc]
    exact h.stmts s st hst
  app s st' hs slot := by
    obtain ⟨st, hst, hdbc, hfits⟩ := hstmts s st' hs
    rw [hdbc]
    exact hfits slot
  descs := h.descs
  fresh n hn := by
    obtain ⟨henv, hdbc, hstmt, hdesc⟩ := h.fresh n hn
    refine ⟨henv, hdbc, ?_, hdesc⟩
    by_contra hne
    obtain ⟨st', hst'⟩ := Option.ne_none_iff_exists'.mp hne
    obtain ⟨st, hst, -⟩ := hstmts n st' hst'
    rw [hstmt] at hst
    cases hst

/-- Descriptors that no statement uses may be deleted, and their use may change. -/
theorem Ok.withDescs (h : v.Ok) {descs : Store ℕ DescView}
    (hdescs : ∀ d desc', descs d = some desc' → ∃ desc, v.descs d = some desc ∧
      desc'.dbc = desc.dbc)
    (huses : ∀ d s, v.Uses d s → descs d = v.descs d) : { v with descs := descs }.Ok where
  dbcs := h.dbcs
  stmts := h.stmts
  app s st hs slot := by
    have hfits := h.app s st hs slot
    cases hp : st.app slot with
    | own s' kind =>
      rw [hp] at hfits
      exact hfits
    | user d =>
      rw [hp] at hfits
      exact (huses d s ⟨st, slot, hs, hp⟩).trans hfits
  descs d desc' hd := by
    obtain ⟨desc, hdesc, hdbc⟩ := hdescs d desc' hd
    dsimp only
    rw [hdbc]
    exact h.descs d desc hdesc
  fresh n hn := by
    obtain ⟨henv, hdbc, hstmt, hdesc⟩ := h.fresh n hn
    refine ⟨henv, hdbc, hstmt, ?_⟩
    by_contra hne
    obtain ⟨desc', hdesc'⟩ := Option.ne_none_iff_exists'.mp hne
    obtain ⟨desc, hd, -⟩ := hdescs n desc' hdesc'
    rw [hdesc] at hd
    cases hd

/-- A connection without statements and descriptors is deleted. -/
theorem Ok.dropDbc (h : v.Ok) (hstmts : ∀ s, ¬ v.StmtOf c s) (hdescs : ∀ d, ¬ v.DescOf c d) :
    { v with dbcs := v.dbcs.drop c }.Ok where
  dbcs c' e hc := by
    dsimp only at hc ⊢
    rw [Store.drop_apply] at hc
    split_ifs at hc with hne
    exact h.dbcs c' e hc
  stmts s st hs := by
    have hne : st.dbc ≠ c := fun heq => hstmts s ⟨st, hs, heq⟩
    dsimp only
    rw [Store.drop_of_ne hne]
    exact h.stmts s st hs
  app := h.app
  descs d desc hd := by
    have hne : desc.dbc ≠ c := fun heq => hdescs d ⟨desc, hd, heq⟩
    dsimp only
    rw [Store.drop_of_ne hne]
    exact h.descs d desc hd
  fresh n hn := by
    obtain ⟨henv, hdbc, hrest⟩ := h.fresh n hn
    refine ⟨henv, ?_, hrest⟩
    dsimp only
    rw [Store.drop_apply, hdbc]
    split_ifs <;> rfl

/-- The statements of a connection go. -/
theorem Ok.dropStmts (h : v.Ok) : (v.dropStmts c).Ok := by
  refine h.withStmts fun s st hs => ?_
  obtain ⟨hs, -⟩ := Option.filter_eq_some_iff.mp hs
  exact ⟨st, hs, rfl, h.app s st hs⟩

theorem not_stmtOf_dropStmts (s : ℕ) : ¬ (v.dropStmts c).StmtOf c s := by
  rintro ⟨st, hs, hc⟩
  have hne := (Option.filter_eq_some_iff.mp hs).2
  exact of_decide_eq_true hne hc

/-- The descriptors of a connection without statements go. -/
theorem Ok.dropDescs (h : v.Ok) (hstmts : ∀ s, ¬ v.StmtOf c s) : (v.dropDescs c).Ok := by
  refine h.withDescs (fun d desc hd => ?_) fun d s huses => ?_
  · obtain ⟨hd, -⟩ := Option.filter_eq_some_iff.mp hd
    exact ⟨desc, hd, rfl⟩
  · obtain ⟨st, slot, hs, -, hd⟩ := h.uses huses
    have hne : st.dbc ≠ c := fun heq => hstmts s ⟨st, hs, heq⟩
    rw [hd]
    exact Option.filter_eq_some_iff.mpr ⟨rfl, decide_eq_true hne⟩

theorem not_descOf_dropDescs (d : ℕ) : ¬ (v.dropDescs c).DescOf c d := by
  rintro ⟨desc, hd, hc⟩
  have hne := (Option.filter_eq_some_iff.mp hd).2
  exact of_decide_eq_true hne hc

/-- A descriptor of the application is deleted when no statement uses it any more. -/
theorem Ok.detach (h : v.Ok) : (v.detach d).Ok := by
  refine h.withStmts fun s st' hs => ?_
  obtain ⟨st, hst, rfl⟩ := Option.map_eq_some_iff.mp hs
  refine ⟨st, hst, rfl, fun slot => ?_⟩
  dsimp only
  split_ifs with huses
  · exact ⟨rfl, imp_descType slot⟩
  · exact h.app s st hst slot

theorem not_uses_detach (s : ℕ) : ¬ (v.detach d).Uses d s := by
  rintro ⟨st', slot, hs, hslot⟩
  obtain ⟨st, hst, rfl⟩ := Option.map_eq_some_iff.mp hs
  dsimp only at hslot
  split_ifs at hslot with huses
  exact huses hslot

/-- A descriptor that no statement uses is deleted. -/
theorem Ok.dropDesc (h : v.Ok) (hunused : ∀ s, ¬ v.Uses d s) :
    { v with descs := v.descs.drop d }.Ok := by
  refine h.withDescs (fun d' desc hd => ?_) fun d' s huses => ?_
  · rw [Store.drop_apply] at hd
    split_ifs at hd
    exact ⟨desc, hd, rfl⟩
  · exact Store.drop_of_ne fun heq => hunused s (heq ▸ huses)

/-- A statement uses a descriptor that fits. -/
theorem Ok.setApp (h : v.Ok) (hfits : ∀ st, v.stmts s = some st → v.Fits s st.dbc slot p) :
    (v.setApp s slot p).Ok := by
  refine h.withStmts fun s' st' hs => ?_
  rw [Function.update_apply] at hs
  split_ifs at hs with heq
  · subst heq
    obtain ⟨st, hst, rfl⟩ := Option.map_eq_some_iff.mp hs
    refine ⟨st, hst, rfl, fun slot' => ?_⟩
    dsimp only
    rw [Function.update_apply]
    split_ifs with hslot
    · rw [hslot]
      exact hfits st hst
    · exact h.app s' st hst slot'
  · exact ⟨st', hs, rfl, h.app s' st' hs⟩

/-- What a descriptor is used for may be set when it is what it is used for. -/
theorem Ok.setType (h : v.Ok) {descType : DescDescType}
    (huses : ∀ d s st slot, p = .user d → v.stmts s = some st → st.app slot = .user d →
      slot.descType = descType) : (v.setType p descType).Ok := by
  cases p with
  | own s' kind => exact h
  | user d =>
    refine h.withDescs (fun d' desc' hd => ?_) fun d' s hused => ?_
    · rw [Function.update_apply] at hd
      split_ifs at hd with heq
      · obtain ⟨desc, hdesc, rfl⟩ := Option.map_eq_some_iff.mp hd
        exact ⟨desc, heq ▸ hdesc, rfl⟩
      · exact ⟨desc', hd, rfl⟩
    · obtain ⟨st, slot, hs, hslot, hd⟩ := h.uses hused
      rw [Function.update_apply]
      split_ifs with heq
      · subst heq
        rw [hd, Option.map_some, ← huses d' s st slot rfl hs hslot]
      · rfl

/-- A descriptor of the application that is used for nothing or for what the attribute says. -/
theorem Ok.uses_of_refusal (h : v.Ok) (hrefusal : v.refusal s c slot p = none) :
    ∀ d s' st slot', p = .user d → v.stmts s' = some st → st.app slot' = .user d →
      slot'.descType = slot.descType := by
  rintro d s' st slot' rfl hs hslot
  have hd := h.app s' st hs slot'
  rw [hslot] at hd
  rw [refusal, hd, Option.bind_some] at hrefusal
  split_ifs at hrefusal with hc htype
  have hknown : slot'.descType ≠ .unknown := by cases slot' <;> exact DescDescType.noConfusion
  by_contra hne
  exact htype ⟨hknown, hne⟩

/-- A statement uses a descriptor that is not refused. -/
theorem Ok.use (h : v.Ok) {st : StmtView} (hs : v.stmts s = some st) (hlive : v.Live p)
    (hrefusal : v.refusal s st.dbc slot p = none) :
    ((v.setType p slot.descType).setApp s slot p).Ok := by
  refine (h.setType (h.uses_of_refusal hrefusal)).setApp fun st' hs' => ?_
  have heq : v.stmts s = some st' := by cases p <;> exact hs'
  obtain rfl := Option.some.inj (hs.symm.trans heq)
  exact fits_of_refusal hlive hrefusal

/-- Copying what a descriptor is used for keeps the objects together when the copy is harmless. -/
theorem Ok.copyType (h : v.Ok) {src dest : DescPtr} (hharmless : v.CopyHarmless src dest) :
    (v.copyType src dest).Ok := by
  unfold HandleView.copyType
  split
  · rename_i d d'
    apply h.setType
    rintro d₁ s st slot heq hs hslot
    obtain rfl := DescPtr.user.inj heq
    obtain heq | ⟨d₂, d₃, c, hsrc, hdest, -, -, -, hunused⟩ := hharmless
    · obtain rfl := DescPtr.user.inj heq
      have hd := h.app s st hs slot
      rw [hslot] at hd
      rw [hd]
      rfl
    · obtain rfl := DescPtr.user.inj hdest
      exact (hunused s ⟨st, slot, hs, hslot⟩).elim
  · exact h

/-- Every legal and harmless call keeps the objects together. -/
theorem Ok.step (h : v.Ok) (call : HandleCall) (hlegal : v.Legal call)
    (hharmless : v.Harmless call) : (v.step call).1.Ok := by
  cases call with
  | allocEnv =>
    refine h.withEnvs (fun c e hc => ?_) (Nat.le_succ _) fun n hn => ?_
    · rw [Store.put_apply]
      split_ifs
      · exact Option.some_ne_none _
      · exact h.dbcs c e hc
    · rw [Store.put_of_ne (by omega)]
      exact (h.fresh n (by omega)).1
  | freeEnv e =>
    refine h.withEnvs (fun c e' hc => ?_) (Nat.le_refl _) fun n hn => ?_
    · have hne : e' ≠ e := fun heq => hlegal.2 c (heq ▸ hc)
      rw [Store.drop_of_ne hne]
      exact h.dbcs c e' hc
    · rw [Store.drop_apply, (h.fresh n hn).1]
      split_ifs <;> rfl
  | setEnvAttr e attr value =>
    unfold HandleView.step
    dsimp only
    split_ifs
    · exact h
    · refine h.withEnvs (fun c e' hc => ?_) (Nat.le_refl _) fun n hn => ?_
      · rw [Store.put_apply]
        split_ifs
        · exact Option.some_ne_none _
        · exact h.dbcs c e' hc
      · have hne : n ≠ e := fun heq => hlegal (heq ▸ (h.fresh n hn).1)
        rw [Store.put_of_ne hne]
        exact (h.fresh n hn).1
  | allocConnect e =>
    unfold HandleView.step
    dsimp only
    split_ifs
    · exact h
    · exact h.addDbc hlegal
  | freeConnect c =>
    have hdropped := h.dropDescs hlegal.2
    exact hdropped.dropDbc hlegal.2 not_descOf_dropDescs
  | disconnect c => exact h.dropStmts
  | resetConnection c => exact h.dropStmts.dropDescs not_stmtOf_dropStmts
  | allocStmt c => exact h.addStmt hlegal
  | dropStmt s =>
    refine h.withStmts fun s' st hs => ?_
    rw [Store.drop_apply] at hs
    split_ifs at hs
    exact ⟨st, hs, rfl, h.app s' st hs⟩
  | allocDesc c => exact h.addDesc hlegal
  | freeDesc p =>
    cases p with
    | own s kind => exact h
    | user d => exact h.detach.dropDesc not_uses_detach
  | setAppDesc s slot value =>
    cases value with
    | none => exact h.setApp fun st hs => ⟨rfl, imp_descType slot⟩
    | some p =>
      unfold HandleView.step
      dsimp only
      split
      · exact h
      · rename_i hrefusal
        obtain ⟨st, hs⟩ := Option.ne_none_iff_exists'.mp hlegal.1
        rw [hs, Option.bind_some] at hrefusal
        exact h.use hs (hlegal.2 p rfl) hrefusal
  | getAppDesc s slot => exact h
  | copyDesc src dest prepared =>
    unfold HandleView.step
    dsimp only
    split
    · exact h
    · rename_i hcopied
      exact h.copyType (hharmless hcopied)

end HandleView

end MatrixOdbc.Driver
