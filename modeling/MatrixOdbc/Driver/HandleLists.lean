import MatrixOdbc.Driver.HandleView

/-!
# The lists of the driver

The lists of the driver tell it which statements use a descriptor, and what a connection and an
environment have. They are right when each has exactly the objects it is for, each once. Here they
stay right when statements and connections are allocated and freed.
-/

namespace MatrixOdbc.Driver

open MyodbcErrid Registry

/-- The descriptor is as the application allocates one. -/
def DescHandle.IsUser (desc : DescHandle) : Prop :=
  desc.allocType = .user ∧ desc.refType = .app ∧ desc.stmt = none

namespace Handles

/-- What an application knows of the handles. -/
def view (h : Handles) : HandleView where
  next := h.next
  envs := h.envs.map fun env => env.odbcVer
  dbcs := h.dbcs.map fun dbc => dbc.env
  stmts := h.stmts.map fun st => ⟨st.dbc, st.app⟩
  descs := h.descs.map fun desc => ⟨desc.dbc, desc.descType⟩

/-- The descriptors are what they were made as. -/
structure Shaped (h : Handles) : Prop where
  own : ∀ s st, h.stmts s = some st → st.desc = ownDesc s st.dbc
  user : ∀ d desc, h.descs d = some desc → desc.IsUser

/-- So are the descriptors, and the lists are right. -/
structure Consistent (h : Handles) : Prop extends h.Shaped where
  ok : h.view.Ok
  envs : ∀ e env, h.envs e = some env → Lists env.connList fun c => h.view.dbcs c = some e
  stmts : ∀ c dbc, h.dbcs c = some dbc → Lists dbc.stmtList (h.view.StmtOf c)
  descs : ∀ c dbc, h.dbcs c = some dbc → Lists dbc.descList (h.view.DescOf c)
  uses : ∀ d desc, h.descs d = some desc → Lists desc.stmtList (h.view.Uses d)

variable {h : Handles} {s c d e : ℕ} {slot : AppSlot} {p : DescPtr}

theorem view_stmts_eq_some {st : StmtView} : h.view.stmts s = some st ↔
    ∃ stmt, h.stmts s = some stmt ∧ ⟨stmt.dbc, stmt.app⟩ = st :=
  Option.map_eq_some_iff

theorem stmtOf_iff : h.view.StmtOf c s ↔ ∃ st, h.stmts s = some st ∧ st.dbc = c := by
  constructor
  · rintro ⟨st, hs, hc⟩
    obtain ⟨stmt, hstmt, rfl⟩ := view_stmts_eq_some.mp hs
    exact ⟨stmt, hstmt, hc⟩
  · rintro ⟨stmt, hstmt, hc⟩
    exact ⟨_, view_stmts_eq_some.mpr ⟨stmt, hstmt, rfl⟩, hc⟩

theorem descOf_iff : h.view.DescOf c d ↔ ∃ desc, h.descs d = some desc ∧ desc.dbc = c := by
  constructor
  · rintro ⟨desc, hd, hc⟩
    obtain ⟨handle, hhandle, rfl⟩ := Option.map_eq_some_iff.mp hd
    exact ⟨handle, hhandle, hc⟩
  · rintro ⟨handle, hhandle, hc⟩
    exact ⟨⟨handle.dbc, handle.descType⟩, Option.map_eq_some_iff.mpr ⟨handle, hhandle, rfl⟩, hc⟩

theorem uses_iff : h.view.Uses d s ↔
    ∃ st slot, h.stmts s = some st ∧ st.app slot = .user d := by
  constructor
  · rintro ⟨st, slot, hs, hslot⟩
    obtain ⟨stmt, hstmt, rfl⟩ := view_stmts_eq_some.mp hs
    exact ⟨stmt, slot, hstmt, hslot⟩
  · rintro ⟨stmt, slot, hstmt, hslot⟩
    exact ⟨_, slot, view_stmts_eq_some.mpr ⟨stmt, hstmt, rfl⟩, hslot⟩

theorem view_dbcs_eq_some : h.view.dbcs c = some e ↔ ∃ dbc, h.dbcs c = some dbc ∧ dbc.env = e :=
  Option.map_eq_some_iff

theorem view_ne_none {κ α β : Type*} {s : Store κ α} {f : α → β} {k : κ} :
    s.map f k ≠ none ↔ ∃ a, s k = some a := by
  rw [Store.map_apply, Ne, Option.map_eq_none_iff, ← Ne, Option.ne_none_iff_exists']

/-- A descriptor that exists has a `DESC`. -/
theorem exists_descAt (hlive : h.view.Live p) : ∃ desc, h.descAt p = some desc := by
  cases p with
  | own s kind =>
    obtain ⟨st, hs⟩ := view_ne_none.mp hlive
    exact ⟨st.desc kind, by rw [descAt, hs, Option.map_some]⟩
  | user d =>
    obtain ⟨desc, hd⟩ := view_ne_none.mp hlive
    exact ⟨desc, hd⟩

/-- The descriptor that a statement uses exists. -/
theorem Consistent.live_app (hc : h.Consistent) {st : StmtHandle} (hs : h.stmts s = some st)
    (slot : AppSlot) : h.view.Live (st.app slot) := by
  have hfits := hc.ok.app s _ (view_stmts_eq_some.mpr ⟨st, hs, rfl⟩) slot
  dsimp only at hfits
  cases hp : st.app slot with
  | own s' kind =>
    rw [hp] at hfits
    rw [hfits.1]
    exact view_ne_none.mpr ⟨st, hs⟩
  | user d =>
    rw [hp] at hfits
    exact fun hnone => Option.some_ne_none _ (hfits.symm.trans hnone)

/-- A statement is taken out of the list of a descriptor of the application. -/
def unlist (h : Handles) (p : DescPtr) (s : ℕ) : Handles :=
  match p with
  | .own _ _ => h
  | .user d =>
    { h with descs := Function.update h.descs d ((h.descs d).map fun desc =>
        { desc with stmtList := desc.stmtList.filter (· ≠ s) }) }

/-- `stmt_list_remove` does nothing to the descriptors of statements. -/
theorem Shaped.stmtListRemove (hc : h.Shaped) (hlive : h.view.Live p) (s : ℕ) :
    h.stmtListRemove p s = some (h.unlist p s) := by
  cases p with
  | own s' kind =>
    obtain ⟨st, hs⟩ := view_ne_none.mp hlive
    have hdesc : h.descAt (.own s' kind) = some (ownDesc s' st.dbc kind) := by
      rw [descAt, hs, Option.map_some, hc.own s' st hs]
    rw [Handles.stmtListRemove, hdesc, Option.map_some, if_neg (by exact AllocType.noConfusion)]
    rfl
  | user d =>
    obtain ⟨desc, hd⟩ := view_ne_none.mp hlive
    have huser := (hc.user d desc hd).1
    rw [Handles.stmtListRemove, descAt, hd, Option.map_some, if_pos huser, unlist, hd]
    rfl

theorem view_unlist : (h.unlist p s).view = h.view := by
  cases p with
  | own s' kind => rfl
  | user d =>
    refine HandleView.ext rfl rfl rfl rfl ?_
    funext d'
    change (Function.update h.descs d _ d').map _ = (h.descs d').map _
    rw [Function.update_apply]
    split_ifs with heq
    · rw [heq, Option.map_map]
      rfl
    · rfl

/-- Without a statement: it is in no list. -/
def without (h : Handles) (s : ℕ) : Handles where
  next := h.next
  envs := h.envs
  dbcs := h.dbcs.map fun dbc => { dbc with stmtList := dbc.stmtList.filter (· ≠ s) }
  stmts := h.stmts.drop s
  descs := h.descs.map fun desc => { desc with stmtList := desc.stmtList.filter (· ≠ s) }

theorem descs_unlist_apply : (h.unlist p s).descs d =
    if p = .user d then (h.descs d).map fun desc =>
      { desc with stmtList := desc.stmtList.filter (· ≠ s) } else h.descs d := by
  cases p with
  | own s' kind => rfl
  | user d' =>
    change Function.update h.descs d' _ d = _
    rw [Function.update_apply]
    simp only [DescPtr.user.injEq, eq_comm (a := d')]
    split_ifs with heq
    · rw [heq]
    · rfl

theorem filter_ne_eq_self {l : List ℕ} {P : ℕ → Prop} (hl : Lists l P) (hs : ¬ P s) :
    l.filter (· ≠ s) = l := by
  refine List.filter_eq_self.mpr fun x hx => decide_eq_true ?_
  rintro rfl
  exact hs ((hl.mem_iff x).mp hx)

/-- Only the descriptors that a statement uses have it in their list. -/
theorem Consistent.descs_unlist (hc : h.Consistent) {st : StmtHandle} (hs : h.stmts s = some st) :
    ((h.unlist (st.app .param) s).unlist (st.app .row) s).descs = (h.without s).descs := by
  funext d
  have hlist : ∀ desc, h.descs d = some desc → (∀ slot, st.app slot ≠ .user d) →
      desc.stmtList.filter (· ≠ s) = desc.stmtList := by
    intro desc hd hunused
    refine filter_ne_eq_self (hc.uses d desc hd) fun huses => ?_
    obtain ⟨st', slot, hs', hslot⟩ := uses_iff.mp huses
    obtain rfl := Option.some.inj (hs.symm.trans hs')
    exact hunused slot hslot
  rw [descs_unlist_apply, descs_unlist_apply]
  change _ = (h.descs d).map _
  cases hd : h.descs d with
  | none => simp
  | some desc =>
    by_cases hparam : st.app .param = .user d
    · by_cases hrow : st.app .row = .user d <;> simp [hparam, hrow]
    · by_cases hrow : st.app .row = .user d
      · simp [hparam, hrow]
      · have hsame := hlist desc hd fun slot => by cases slot <;> assumption
        simp only [hparam, hrow, if_false, Option.map_some, hsame]

theorem Shaped.unlist (hc : h.Shaped) : (h.unlist p s).Shaped := by
  cases p with
  | own s' kind => exact hc
  | user d =>
    refine ⟨hc.own, fun d' desc hd => ?_⟩
    change Function.update h.descs d _ d' = _ at hd
    rw [Function.update_apply] at hd
    split_ifs at hd with heq
    · obtain ⟨before, hbefore, rfl⟩ := Option.map_eq_some_iff.mp hd
      exact hc.user d before hbefore
    · exact hc.user d' desc hd

theorem unlist_stmts : (h.unlist p s).stmts = h.stmts := by cases p <;> rfl

theorem unlist_dbcs : (h.unlist p s).dbcs = h.dbcs := by cases p <;> rfl

theorem unlist_envs : (h.unlist p s).envs = h.envs := by cases p <;> rfl

theorem unlist_next : (h.unlist p s).next = h.next := by cases p <;> rfl

/-- Only the connection of a statement has it in its list. -/
theorem Consistent.dbcs_without (hc : h.Consistent) {st : StmtHandle} {dbc : DbcHandle}
    (hs : h.stmts s = some st) (hdbc : h.dbcs st.dbc = some dbc) :
    h.dbcs.put st.dbc { dbc with stmtList := dbc.stmtList.filter (· ≠ s) } =
      (h.without s).dbcs := by
  funext c
  change _ = (h.dbcs c).map _
  rw [Store.put_apply]
  split_ifs with heq
  · rw [heq, hdbc]
    rfl
  cases hd : h.dbcs c with
  | none => rfl
  | some other =>
    have hlist := filter_ne_eq_self (s := s) (hc.stmts c other hd) fun hof => by
      obtain ⟨st', hs', hof⟩ := stmtOf_iff.mp hof
      obtain rfl := Option.some.inj (hs.symm.trans hs')
      exact heq hof.symm
    rw [Option.map_some, hlist]

/-- A statement that is dropped leaves all lists. The list of its connection may be without it
already. -/
theorem Consistent.freeStmtDrop_withDbcs (hc : h.Consistent) {st : StmtHandle}
    (hst : h.stmts s = some st) {dbcs : Store ℕ DbcHandle} {dbc : DbcHandle}
    (hdbc : dbcs st.dbc = some dbc)
    (hdbcs : dbcs.put st.dbc { dbc with stmtList := dbc.stmtList.filter (· ≠ s) } =
      (h.without s).dbcs) :
    mySQLFreeStmtDrop { h with dbcs := dbcs } s = some (h.without s) := by
  have hshaped : Shaped { h with dbcs := dbcs } := ⟨hc.own, hc.user⟩
  have hparam : ({ h with dbcs := dbcs } : Handles).view.Live (st.app .param) := by
    have hlive := hc.live_app hst .param
    cases hp : st.app .param <;> (rw [hp] at hlive; exact hlive)
  have hrow : (unlist { h with dbcs := dbcs } (st.app .param) s).view.Live (st.app .row) := by
    rw [view_unlist]
    have hlive := hc.live_app hst .row
    cases hp : st.app .row <;> (rw [hp] at hlive; exact hlive)
  have hremoved : mySQLFreeStmtDrop { h with dbcs := dbcs } s =
      some { unlist (unlist { h with dbcs := dbcs } (st.app .param) s) (st.app .row) s with
        dbcs := dbcs.put st.dbc { dbc with stmtList := dbc.stmtList.filter (· ≠ s) }
        stmts := h.stmts.drop s } := by
    rw [mySQLFreeStmtDrop, hst, Option.bind_eq_bind, Option.bind_some,
      hshaped.stmtListRemove hparam, Option.bind_eq_bind, Option.bind_some,
      hshaped.unlist.stmtListRemove hrow, Option.bind_eq_bind, Option.bind_some,
      unlist_dbcs, unlist_dbcs, unlist_stmts, unlist_stmts]
    dsimp only
    rw [hdbc, Option.bind_some]
  rw [hremoved, Option.some_inj]
  have hdescs := hc.descs_unlist hst
  refine Handles.ext (unlist_next.trans unlist_next) (unlist_envs.trans unlist_envs) hdbcs rfl ?_
  rw [← hdescs]
  cases st.app .param <;> cases st.app .row <;> rfl

/-- `SQL_DROP` of a statement. -/
theorem Consistent.mySQLFreeStmtDrop (hc : h.Consistent) (hs : h.view.stmts s ≠ none) :
    h.mySQLFreeStmtDrop s = some (h.without s) := by
  obtain ⟨st, hst⟩ := view_ne_none.mp hs
  obtain ⟨dbc, hdbc⟩ := view_ne_none.mp (hc.ok.stmts s _ (view_stmts_eq_some.mpr ⟨st, hst, rfl⟩))
  exact hc.freeStmtDrop_withDbcs hst hdbc (hc.dbcs_without hst hdbc)

theorem view_without : (h.without s).view = { h.view with stmts := h.view.stmts.drop s } := by
  refine HandleView.ext rfl rfl ?_ ?_ ?_
  · funext c
    change ((h.dbcs c).map _).map _ = (h.dbcs c).map _
    rw [Option.map_map]
    rfl
  · exact Store.map_drop
  · funext d
    change ((h.descs d).map _).map _ = (h.descs d).map _
    rw [Option.map_map]
    rfl

/-- The lists are right when a statement is deleted. -/
theorem Consistent.without (hc : h.Consistent) (hs : h.view.stmts s ≠ none) :
    (h.without s).Consistent := by
  have hview := @view_without h s
  have hstmts : ∀ s' st, (h.without s).stmts s' = some st → s' ≠ s ∧ h.stmts s' = some st := by
    intro s' st hs'
    change h.stmts.drop s s' = some st at hs'
    rw [Store.drop_apply] at hs'
    split_ifs at hs' with hne
    exact ⟨hne, hs'⟩
  have hback : ∀ s' st, h.stmts s' = some st → s' ≠ s → (h.without s).stmts s' = some st :=
    fun s' st hs' hne => (Store.drop_of_ne hne).trans hs'
  have hok := hc.ok.step (.dropStmt s) hs trivial
  refine ⟨⟨?_, ?_⟩, ?_, ?_, ?_, ?_, ?_⟩
  · exact fun s' st hs' => hc.own s' st (hstmts s' st hs').2
  · intro d desc hd
    obtain ⟨before, hbefore, rfl⟩ := Option.map_eq_some_iff.mp hd
    exact hc.user d before hbefore
  · rw [hview]
    exact hok
  · intro e env he
    rw [hview]
    exact hc.envs e env he
  · intro c dbc hdbc
    obtain ⟨before, hbefore, rfl⟩ := Option.map_eq_some_iff.mp hdbc
    refine ((hc.stmts c before hbefore).remove s).congr fun s' => ?_
    rw [stmtOf_iff, stmtOf_iff]
    constructor
    · rintro ⟨⟨st, hs', hof⟩, hne⟩
      exact ⟨st, hback s' st hs' hne, hof⟩
    · rintro ⟨st, hs', hof⟩
      obtain ⟨hne, hs'⟩ := hstmts s' st hs'
      exact ⟨⟨st, hs', hof⟩, hne⟩
  · intro c dbc hdbc
    obtain ⟨before, hbefore, rfl⟩ := Option.map_eq_some_iff.mp hdbc
    rw [hview]
    exact hc.descs c before hbefore
  · intro d desc hd
    obtain ⟨before, hbefore, rfl⟩ := Option.map_eq_some_iff.mp hd
    refine ((hc.uses d before hbefore).remove s).congr fun s' => ?_
    rw [uses_iff, uses_iff]
    constructor
    · rintro ⟨⟨st, slot, hs', hslot⟩, hne⟩
      exact ⟨st, slot, hback s' st hs' hne, hslot⟩
    · rintro ⟨st, slot, hs', hslot⟩
      obtain ⟨hne, hs'⟩ := hstmts s' st hs'
      exact ⟨⟨st, slot, hs', hslot⟩, hne⟩

theorem dropStmts_without (hs : h.view.StmtOf c s) :
    (h.without s).view.dropStmts c = h.view.dropStmts c := by
  rw [view_without]
  refine HandleView.ext rfl rfl rfl ?_ rfl
  funext s'
  change (h.view.stmts.drop s s').filter _ = (h.view.stmts s').filter _
  rw [Store.drop_apply]
  split_ifs with heq
  · obtain ⟨st, hst, hof⟩ := hs
    rw [heq, hst, Option.filter_some, hof]
    simp
  · rfl

theorem dropStmts_of_none (hnone : ∀ s, ¬ h.view.StmtOf c s) : h.view.dropStmts c = h.view := by
  refine HandleView.ext rfl rfl rfl ?_ rfl
  funext s
  change (h.view.stmts s).filter _ = h.view.stmts s
  cases hs : h.view.stmts s with
  | none => rfl
  | some st =>
    have hne : st.dbc ≠ c := fun heq => hnone s ⟨st, hs, heq⟩
    simp [hne]

/-- The loop drops the statements of the connection one after the other. -/
theorem Consistent.dropStmts {turns : ℕ} (hc : h.Consistent) {dbc : DbcHandle}
    (hdbc : h.dbcs c = some dbc) (hturns : dbc.stmtList.length = turns) :
    ∃ h', Handles.dropStmts c turns h = some h' ∧ h'.Consistent ∧
      h'.view = h.view.dropStmts c := by
  induction turns generalizing h dbc with
  | zero =>
    have hnone := (hc.stmts c dbc hdbc).eq_nil_iff.mp (List.eq_nil_of_length_eq_zero hturns)
    exact ⟨h, rfl, hc, (dropStmts_of_none hnone).symm⟩
  | succ turns ih =>
    obtain ⟨s, rest, hlist⟩ : ∃ s rest, dbc.stmtList = s :: rest := by
      cases hlist : dbc.stmtList with
      | nil => rw [hlist] at hturns; cases hturns
      | cons s rest => exact ⟨s, rest, rfl⟩
    have hlists := hc.stmts c dbc hdbc
    have hof : h.view.StmtOf c s := (hlists.mem_iff s).mp (hlist ▸ List.mem_cons_self)
    have hrest : rest.filter (· ≠ s) = rest := by
      have hnodup := hlists.nodup
      rw [hlist, List.nodup_cons] at hnodup
      refine List.filter_eq_self.mpr fun x hx => decide_eq_true ?_
      rintro rfl
      exact hnodup.1 hx
    have hfiltered : dbc.stmtList.filter (· ≠ s) = rest := by
      rw [hlist, List.filter_cons_of_neg (by simp), hrest]
    obtain ⟨st, hst, hstc⟩ := stmtOf_iff.mp hof
    subst hstc
    have hdbcs : (h.dbcs.put st.dbc { dbc with stmtList := rest }).put st.dbc
        { dbc with stmtList := rest.filter (· ≠ s) } = (h.without s).dbcs := by
      have hwithout := hc.dbcs_without hst hdbc
      rw [Store.put_put, hrest]
      rwa [hfiltered] at hwithout
    have hdropped := hc.freeStmtDrop_withDbcs hst Store.put_self hdbcs
    have hsome : h.view.stmts s ≠ none := view_ne_none.mpr ⟨st, hst⟩
    have hafter : (h.without s).dbcs st.dbc = some { dbc with stmtList := rest } := by
      rw [← hdbcs, Store.put_self, hrest]
    have hlength : rest.length = turns := by
      rw [hlist, List.length_cons] at hturns
      omega
    obtain ⟨h', hrun, hc', hview⟩ := ih (hc.without hsome) hafter hlength
    refine ⟨h', ?_, hc', ?_⟩
    · rw [Handles.dropStmts, hdbc, Option.bind_eq_bind, Option.bind_some, hlist]
      dsimp only
      rw [hdropped, Option.bind_eq_bind, Option.bind_some]
      exact hrun
    · rw [hview, dropStmts_without hof]

/-- `free_connection_stmts`. -/
theorem Consistent.freeConnectionStmts (hc : h.Consistent) (hdbc : h.view.dbcs c ≠ none) :
    ∃ h', h.freeConnectionStmts c = some h' ∧ h'.Consistent ∧ h'.view = h.view.dropStmts c := by
  obtain ⟨dbc, hdbc⟩ := view_ne_none.mp hdbc
  obtain ⟨h', hrun, hc', hview⟩ := hc.dropStmts hdbc rfl
  have hdbc' : h'.view.dbcs c ≠ none := by
    rw [hview]
    exact view_ne_none.mpr ⟨dbc, hdbc⟩
  obtain ⟨dbc', hdbc'⟩ := view_ne_none.mp hdbc'
  have hnone : ∀ s, ¬ h'.view.StmtOf c s := by
    rw [hview]
    exact HandleView.not_stmtOf_dropStmts
  have hempty := (hc'.stmts c dbc' hdbc').eq_nil_iff.mpr hnone
  refine ⟨h', ?_, hc', hview⟩
  have hsame : h'.dbcs.put c { dbc' with stmtList := [] } = h'.dbcs := by
    rw [← hempty]
    exact Store.put_eq_self hdbc'
  rw [Handles.freeConnectionStmts, hdbc, Option.bind_eq_bind, Option.bind_some, hrun,
    Option.bind_eq_bind, Option.bind_some, hdbc', Option.bind_some, hsame]

/-- The loop of `free_explicit_descriptors`. -/
theorem deleteDescs_eq {list : List ℕ} (hnodup : list.Nodup)
    (hlive : ∀ d ∈ list, ∃ desc, h.descs d = some desc) :
    deleteDescs list h =
      some { h with descs := fun d => if d ∈ list then none else h.descs d } := by
  induction list generalizing h with
  | nil => rfl
  | cons d rest ih =>
    obtain ⟨hd, hnodup⟩ := List.nodup_cons.mp hnodup
    obtain ⟨desc, hdesc⟩ := hlive d List.mem_cons_self
    have hrest : ∀ d' ∈ rest, ∃ desc, h.descs.drop d d' = some desc := by
      intro d' hd'
      have hne : d' ≠ d := fun heq => hd (heq ▸ hd')
      rw [Store.drop_of_ne hne]
      exact hlive d' (List.mem_cons_of_mem _ hd')
    rw [deleteDescs, hdesc, Option.bind_eq_bind, Option.bind_some, ih hnodup hrest, Option.some_inj]
    refine Handles.ext rfl rfl rfl rfl ?_
    funext d'
    dsimp only
    rw [Store.drop_apply]
    by_cases heq : d' = d
    · simp [heq]
    · simp [heq]

/-- Without the descriptors of a connection. -/
def withoutDescs (h : Handles) (c : ℕ) (dbc : DbcHandle) : Handles :=
  { h with
    descs := fun d => if d ∈ dbc.descList then none else h.descs d
    dbcs := h.dbcs.put c { dbc with descList := [] } }

/-- `free_explicit_descriptors`, whatever the environments list. -/
theorem Consistent.freeExplicitDescriptors_withEnvs (hc : h.Consistent) {dbc : DbcHandle}
    (hdbc : h.dbcs c = some dbc) (envs : Store ℕ EnvHandle) :
    freeExplicitDescriptors { h with envs := envs } c =
      some { h.withoutDescs c dbc with envs := envs } := by
  have hlists := hc.descs c dbc hdbc
  have hlive : ∀ d ∈ dbc.descList, ∃ desc, h.descs d = some desc := by
    intro d hd
    obtain ⟨desc, hdesc, -⟩ := descOf_iff.mp ((hlists.mem_iff d).mp hd)
    exact ⟨desc, hdesc⟩
  rw [freeExplicitDescriptors, hdbc, Option.bind_eq_bind, Option.bind_some,
    @deleteDescs_eq { h with envs := envs } _ hlists.nodup hlive]
  dsimp only
  rw [Option.bind_eq_bind, Option.bind_some]
  rfl

theorem Consistent.view_withoutDescs (hc : h.Consistent) {dbc : DbcHandle}
    (hdbc : h.dbcs c = some dbc) : (h.withoutDescs c dbc).view = h.view.dropDescs c := by
  refine HandleView.ext rfl rfl ?_ rfl ?_
  · change (h.dbcs.put c _).map _ = h.dbcs.map _
    rw [Store.map_put]
    exact Store.put_eq_self (by rw [Store.map_apply, hdbc]; rfl)
  · funext d
    change Option.map _ (if d ∈ dbc.descList then none else h.descs d) = (h.view.descs d).filter _
    have hmem := (hc.descs c dbc hdbc).mem_iff d
    cases hd : h.view.descs d with
    | none =>
      have hnone := Option.map_eq_none_iff.mp hd
      rw [hnone]
      split_ifs <;> rfl
    | some desc =>
      by_cases hof : desc.dbc = c
      · rw [if_pos (hmem.mpr ⟨desc, hd, hof⟩), Option.filter_some, hof]
        simp
      · rw [if_neg fun hin => hof ?_]
        · rw [Option.filter_some, decide_eq_true hof, if_pos rfl]
          exact hd
        · obtain ⟨desc', hd', hof'⟩ := hmem.mp hin
          rw [← Option.some.inj (hd.symm.trans hd')] at hof'
          exact hof'

/-- The lists are right when the descriptors of a connection without statements are deleted. -/
theorem Consistent.withoutDescs (hc : h.Consistent) {dbc : DbcHandle}
    (hdbc : h.dbcs c = some dbc) (hnone : ∀ s, ¬ h.view.StmtOf c s) :
    (h.withoutDescs c dbc).Consistent := by
  have hview := hc.view_withoutDescs hdbc
  have hsub : ∀ d desc, (h.withoutDescs c dbc).descs d = some desc → h.descs d = some desc := by
    intro d desc hd
    change (if d ∈ dbc.descList then none else h.descs d) = some desc at hd
    split_ifs at hd
    exact hd
  refine ⟨⟨hc.own, fun d desc hd => hc.user d desc (hsub d desc hd)⟩, ?_, ?_, ?_, ?_, ?_⟩
  · rw [hview]
    exact hc.ok.dropDescs hnone
  · rw [hview]
    exact hc.envs
  · intro c' dbc' hdbc'
    rw [hview]
    change h.dbcs.put c _ c' = some dbc' at hdbc'
    rw [Store.put_apply] at hdbc'
    split_ifs at hdbc' with heq
    · cases hdbc'
      exact heq ▸ hc.stmts c dbc hdbc
    · exact hc.stmts c' dbc' hdbc'
  · intro c' dbc' hdbc'
    rw [hview]
    change h.dbcs.put c _ c' = some dbc' at hdbc'
    rw [Store.put_apply] at hdbc'
    split_ifs at hdbc' with heq
    · cases hdbc'
      exact heq ▸ lists_nil HandleView.not_descOf_dropDescs
    · refine (hc.descs c' dbc' hdbc').congr fun d => ?_
      constructor
      · rintro ⟨desc, hd, rfl⟩
        exact ⟨desc, Option.filter_eq_some_iff.mpr ⟨hd, decide_eq_true heq⟩, rfl⟩
      · rintro ⟨desc, hd, hof⟩
        exact ⟨desc, (Option.filter_eq_some_iff.mp hd).1, hof⟩
  · intro d desc hd
    rw [hview]
    exact hc.uses d desc (hsub d desc hd)

/-- A connection is deleted behind its descriptors. -/
def withoutDbc (h : Handles) (c : ℕ) (dbc : DbcHandle) (env : EnvHandle) : Handles :=
  { h.withoutDescs c dbc with
    envs := h.envs.put dbc.env { env with connList := env.connList.filter (· ≠ c) }
    dbcs := h.dbcs.drop c }

theorem Consistent.view_withoutDbc (hc : h.Consistent) {dbc : DbcHandle} {env : EnvHandle}
    (hdbc : h.dbcs c = some dbc) (henv : h.envs dbc.env = some env) :
    (h.withoutDbc c dbc env).view = (h.view.step (.freeConnect c)).1 := by
  have hdescs := congrArg HandleView.descs (hc.view_withoutDescs hdbc)
  refine HandleView.ext rfl ?_ ?_ rfl hdescs
  · change (h.envs.put dbc.env _).map _ = h.envs.map _
    rw [Store.map_put]
    exact Store.put_eq_self (by rw [Store.map_apply, henv]; rfl)
  · exact Store.map_drop

/-- The lists are right when a connection without statements is deleted. -/
theorem Consistent.withoutDbc (hc : h.Consistent) {dbc : DbcHandle} {env : EnvHandle}
    (hdbc : h.dbcs c = some dbc) (henv : h.envs dbc.env = some env)
    (hnone : ∀ s, ¬ h.view.StmtOf c s) : (h.withoutDbc c dbc env).Consistent := by
  have hview := hc.view_withoutDbc hdbc henv
  have hdropped := hc.withoutDescs hdbc hnone
  have hkept : ∀ c' dbc', h.dbcs.drop c c' = some dbc' →
      (h.withoutDescs c dbc).dbcs c' = some dbc' := by
    intro c' dbc' hdbc'
    rw [Store.drop_apply] at hdbc'
    split_ifs at hdbc' with hne
    exact (Store.put_of_ne hne).trans hdbc'
  refine ⟨⟨hdropped.own, hdropped.user⟩, ?_, ?_, ?_, ?_, hdropped.uses⟩
  · rw [hview]
    exact hc.ok.step (.freeConnect c) ⟨view_ne_none.mpr ⟨dbc, hdbc⟩, hnone⟩ trivial
  · intro e env' he
    change h.envs.put dbc.env _ e = some env' at he
    change Lists _ fun c' => (h.dbcs.drop c).map _ c' = some e
    rw [Store.map_drop]
    rw [Store.put_apply] at he
    split_ifs at he with heq
    · cases he
      refine ((hc.envs dbc.env env henv).remove c).congr fun c' => ?_
      rw [Store.drop_apply, heq]
      split_ifs with hne
      · exact iff_of_false (fun hof => hof.2 hne) (by simp)
      · exact and_iff_left hne
    · refine (hc.envs e env' he).congr fun c' => ?_
      rw [Store.drop_apply]
      split_ifs with hne
      · refine iff_of_false (fun hof => ?_) (by simp)
        obtain ⟨dbc', hdbc', hof⟩ := view_dbcs_eq_some.mp hof
        rw [hne, hdbc] at hdbc'
        rw [← Option.some.inj hdbc'] at hof
        exact heq hof.symm
      · rfl
  · exact fun c' dbc' hdbc' => hdropped.stmts c' dbc' (hkept c' dbc' hdbc')
  · exact fun c' dbc' hdbc' => hdropped.descs c' dbc' (hkept c' dbc' hdbc')

/-- `my_SQLFreeConnect`. -/
theorem Consistent.mySQLFreeConnect (hc : h.Consistent) (hlive : h.view.dbcs c ≠ none)
    (hnone : ∀ s, ¬ h.view.StmtOf c s) :
    ∃ h', h.mySQLFreeConnect c = some (h', .success) ∧ h'.Consistent ∧
      h'.view = (h.view.step (.freeConnect c)).1 := by
  obtain ⟨dbc, hdbc⟩ := view_ne_none.mp hlive
  obtain ⟨env, henv⟩ := view_ne_none.mp (hc.ok.dbcs c _ (view_dbcs_eq_some.mpr ⟨dbc, hdbc, rfl⟩))
  refine ⟨h.withoutDbc c dbc env, ?_, hc.withoutDbc hdbc henv hnone, hc.view_withoutDbc hdbc henv⟩
  rw [Handles.mySQLFreeConnect, hdbc, Option.bind_eq_bind, Option.bind_some, henv,
    Option.bind_eq_bind, Option.bind_some]
  dsimp only
  rw [hc.freeExplicitDescriptors_withEnvs hdbc, Option.bind_eq_bind, Option.bind_some]
  refine congrArg (fun h' => some (h', HandleReply.success)) (Handles.ext rfl rfl ?_ rfl rfl)
  funext c'
  change (h.dbcs.put c _).drop c c' = h.dbcs.drop c c'
  rw [Store.drop_apply, Store.drop_apply]
  split_ifs with heq
  · rfl
  · exact Store.put_of_ne heq

/-- `reset_connection`. -/
theorem Consistent.resetConnection (hc : h.Consistent) (hlive : h.view.dbcs c ≠ none) :
    ∃ h', h.resetConnection c = some (h', .success) ∧ h'.Consistent ∧
      h'.view = (h.view.step (.resetConnection c)).1 := by
  obtain ⟨h₁, hrun, hc₁, hview₁⟩ := hc.freeConnectionStmts hlive
  have hlive₁ : h₁.view.dbcs c ≠ none := by
    rw [hview₁]
    exact hlive
  have hnone : ∀ s, ¬ h₁.view.StmtOf c s := by
    rw [hview₁]
    exact HandleView.not_stmtOf_dropStmts
  obtain ⟨dbc, hdbc⟩ := view_ne_none.mp hlive₁
  refine ⟨h₁.withoutDescs c dbc, ?_, hc₁.withoutDescs hdbc hnone, ?_⟩
  · have hfreed := hc₁.freeExplicitDescriptors_withEnvs hdbc h₁.envs
    rw [Handles.resetConnection, hrun, Option.bind_eq_bind, Option.bind_some]
    change (h₁.freeExplicitDescriptors c).bind _ = _
    rw [show h₁.freeExplicitDescriptors c = _ from hfreed]
    rfl
  · rw [hc₁.view_withoutDescs hdbc, hview₁]
    rfl

/-- A connection is added to its environment. -/
theorem Consistent.mySQLAllocConnect (hc : h.Consistent) (hlive : h.view.envs e ≠ none) :
    ∃ h', h.mySQLAllocConnect e = some (h', (h.view.step (.allocConnect e)).2) ∧
      h'.Consistent ∧ h'.view = (h.view.step (.allocConnect e)).1 := by
  obtain ⟨env, henv⟩ := view_ne_none.mp hlive
  have hver : h.view.envs e = some env.odbcVer := by
    change (h.envs e).map _ = _
    rw [henv, Option.map_some]
  rw [Handles.mySQLAllocConnect, henv, Option.bind_eq_bind, Option.bind_some, HandleView.step, hver]
  by_cases hzero : env.odbcVer = 0
  · rw [if_pos hzero, if_pos (congrArg some hzero)]
    exact ⟨h, rfl, hc, rfl⟩
  rw [if_neg hzero, if_neg fun heq => hzero (Option.some.inj heq)]
  have hnext := hc.ok.next_none
  have hview : ∀ h' : Handles, h' = { h with
      next := h.next + 1
      dbcs := h.dbcs.put h.next ⟨e, [], []⟩
      envs := h.envs.put e { env with connList := env.connList ++ [h.next] } } →
      h'.view = { h.view with next := h.next + 1, dbcs := h.view.dbcs.put h.next e } := by
    rintro h' rfl
    refine HandleView.ext rfl ?_ Store.map_put rfl rfl
    change (h.envs.put e _).map _ = h.envs.map _
    rw [Store.map_put]
    exact Store.put_eq_self hver
  refine ⟨_, rfl, ?_, hview _ rfl⟩
  have hview := hview _ rfl
  have hadded : ∀ c dbc, h.dbcs.put h.next ⟨e, [], []⟩ c = some dbc →
      c = h.next ∧ dbc = ⟨e, [], []⟩ ∨ h.dbcs c = some dbc := by
    intro c dbc hdbc
    rw [Store.put_apply] at hdbc
    split_ifs at hdbc with heq
    · exact Or.inl ⟨heq, (Option.some.inj hdbc).symm⟩
    · exact Or.inr hdbc
  refine ⟨⟨hc.own, hc.user⟩, ?_, ?_, ?_, ?_, hc.uses⟩
  · rw [hview]
    exact hc.ok.addDbc hlive
  · intro e' env' he
    rw [hview]
    dsimp only at he ⊢
    rw [Store.put_apply] at he
    split_ifs at he with heq
    · cases he
      have hnew : ¬ h.view.dbcs h.next = some e := by
        rw [show h.view.dbcs h.next = none from hnext.2.1]
        simp
      refine ((hc.envs e env henv).add hnew).congr fun c => ?_
      rw [Store.put_apply, heq]
      split_ifs with hc' <;> simp [hc']
    · refine (hc.envs e' env' he).congr fun c => ?_
      rw [Store.put_apply]
      split_ifs with hc'
      · rw [hc', show h.view.dbcs h.next = none from hnext.2.1]
        simp [Ne.symm heq]
      · rfl
  · intro c dbc hdbc
    rw [hview]
    obtain ⟨rfl, rfl⟩ | hold := hadded c dbc hdbc
    · refine lists_nil fun s hof => ?_
      obtain ⟨st, hs, hst⟩ := hof
      exact hc.ok.stmts s st hs (hst ▸ hnext.2.1)
    · exact hc.stmts c dbc hold
  · intro c dbc hdbc
    rw [hview]
    obtain ⟨rfl, rfl⟩ | hold := hadded c dbc hdbc
    · refine lists_nil fun d hof => ?_
      obtain ⟨desc, hd, hdesc⟩ := hof
      exact hc.ok.descs d desc hd (hdesc ▸ hnext.2.1)
    · exact hc.descs c dbc hold

/-- A statement is added to its connection. -/
theorem Consistent.mySQLAllocStmt (hc : h.Consistent) (hlive : h.view.dbcs c ≠ none) :
    ∃ h', h.mySQLAllocStmt c = some (h', .handle h.next) ∧ h'.Consistent ∧
      h'.view = (h.view.step (.allocStmt c)).1 := by
  obtain ⟨dbc, hdbc⟩ := view_ne_none.mp hlive
  have hnext := hc.ok.next_none
  rw [Handles.mySQLAllocStmt, hdbc, Option.bind_eq_bind, Option.bind_some]
  have hview : ∀ h' : Handles, h' = { h with
      next := h.next + 1
      stmts := h.stmts.put h.next ⟨c, ownDesc h.next c, fun slot => .own h.next slot.imp⟩
      dbcs := h.dbcs.put c { dbc with stmtList := dbc.stmtList ++ [h.next] } } →
      h'.view = (h.view.step (.allocStmt c)).1 := by
    rintro h' rfl
    refine HandleView.ext rfl rfl ?_ Store.map_put rfl
    change (h.dbcs.put c _).map _ = h.dbcs.map _
    rw [Store.map_put]
    exact Store.put_eq_self (by rw [Store.map_apply, hdbc]; rfl)
  refine ⟨_, rfl, ?_, hview _ rfl⟩
  have hview := hview _ rfl
  have hstmtOf : ∀ c' s, (h.view.step (.allocStmt c)).1.StmtOf c' s ↔
      h.view.StmtOf c' s ∨ c' = c ∧ s = h.next := by
    intro c' s
    change (∃ st, h.view.stmts.put h.next _ s = some st ∧ st.dbc = c') ↔ _
    rw [Store.put_apply]
    split_ifs with heq
    · subst heq
      have hnone : ¬ h.view.StmtOf c' h.next := by
        rintro ⟨st, hs, -⟩
        exact Option.some_ne_none _ (hs.symm.trans hnext.2.2.1)
      simp [hnone, eq_comm]
    · simp [HandleView.StmtOf, heq]
  have huses : ∀ d s, (h.view.step (.allocStmt c)).1.Uses d s ↔ h.view.Uses d s := by
    intro d s
    change (∃ st slot, h.view.stmts.put h.next _ s = some st ∧ st.app slot = .user d) ↔ _
    rw [Store.put_apply]
    split_ifs with heq
    · subst heq
      have hnone : ¬ h.view.Uses d h.next := by
        rintro ⟨st, slot, hs, -⟩
        exact Option.some_ne_none _ (hs.symm.trans hnext.2.2.1)
      simp [hnone]
    · rfl
  refine ⟨⟨?_, hc.user⟩, ?_, ?_, ?_, ?_, ?_⟩
  · intro s st hs
    dsimp only at hs
    rw [Store.put_apply] at hs
    split_ifs at hs with heq
    · cases hs
      rw [heq]
    · exact hc.own s st hs
  · rw [hview]
    exact hc.ok.addStmt hlive
  · rw [hview]
    exact hc.envs
  · intro c' dbc' hdbc'
    rw [hview]
    dsimp only at hdbc'
    rw [Store.put_apply] at hdbc'
    split_ifs at hdbc' with heq
    · cases hdbc'
      have hnew : ¬ h.view.StmtOf c h.next := by
        rintro ⟨st, hs, -⟩
        exact Option.some_ne_none _ (hs.symm.trans hnext.2.2.1)
      refine ((hc.stmts c dbc hdbc).add hnew).congr fun s => ?_
      rw [hstmtOf, heq]
      simp
    · refine (hc.stmts c' dbc' hdbc').congr fun s => ?_
      rw [hstmtOf]
      simp [heq]
  · intro c' dbc' hdbc'
    rw [hview]
    dsimp only at hdbc'
    rw [Store.put_apply] at hdbc'
    split_ifs at hdbc' with heq
    · cases hdbc'
      exact heq ▸ hc.descs c dbc hdbc
    · exact hc.descs c' dbc' hdbc'
  · intro d desc hd
    rw [hview]
    exact (hc.uses d desc hd).congr fun s => (huses d s).symm

end Handles

end MatrixOdbc.Driver
