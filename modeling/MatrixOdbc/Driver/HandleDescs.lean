import MatrixOdbc.Driver.HandleLists

/-!
# Descriptors in the lists

The calls on descriptors: a descriptor of the application is allocated and freed, a statement uses
another one, and one is copied to another. Each keeps the lists right, unless it is refused when
the statement uses a descriptor of the application, or copies between descriptors that are not
alike.
-/

namespace MatrixOdbc.Driver

open MyodbcErrid Registry

namespace Handles

variable {h : Handles} {s c d e : ℕ} {slot : AppSlot} {p : DescPtr}

/-- A descriptor is added to its connection. -/
theorem Consistent.mySQLAllocDesc (hc : h.Consistent) (hlive : h.view.dbcs c ≠ none) :
    ∃ h', h.mySQLAllocDesc c = some (h', .handle h.next) ∧ h'.Consistent ∧
      h'.view = (h.view.step (.allocDesc c)).1 := by
  obtain ⟨dbc, hdbc⟩ := view_ne_none.mp hlive
  have hnext := hc.ok.next_none
  rw [Handles.mySQLAllocDesc, hdbc, Option.bind_eq_bind, Option.bind_some]
  have hview : ∀ h' : Handles, h' = { h with
      next := h.next + 1
      descs := h.descs.put h.next ⟨.user, .app, .unknown, none, c, []⟩
      dbcs := h.dbcs.put c { dbc with descList := dbc.descList ++ [h.next] } } →
      h'.view = (h.view.step (.allocDesc c)).1 := by
    rintro h' rfl
    refine HandleView.ext rfl rfl ?_ rfl Store.map_put
    change (h.dbcs.put c _).map _ = h.dbcs.map _
    rw [Store.map_put]
    exact Store.put_eq_self (by rw [Store.map_apply, hdbc]; rfl)
  refine ⟨_, rfl, ?_, hview _ rfl⟩
  have hview := hview _ rfl
  have hdescOf : ∀ c' d, (h.view.step (.allocDesc c)).1.DescOf c' d ↔
      h.view.DescOf c' d ∨ c' = c ∧ d = h.next := by
    intro c' d
    change (∃ desc, h.view.descs.put h.next _ d = some desc ∧ desc.dbc = c') ↔ _
    rw [Store.put_apply]
    split_ifs with heq
    · subst heq
      have hnone : ¬ h.view.DescOf c' h.next := by
        rintro ⟨desc, hd, -⟩
        exact Option.some_ne_none _ (hd.symm.trans hnext.2.2.2)
      simp [hnone, eq_comm]
    · simp [HandleView.DescOf, heq]
  refine ⟨⟨hc.own, ?_⟩, ?_, ?_, ?_, ?_, ?_⟩
  · intro d desc hd
    dsimp only at hd
    rw [Store.put_apply] at hd
    split_ifs at hd with heq
    · cases hd
      exact ⟨rfl, rfl, rfl⟩
    · exact hc.user d desc hd
  · rw [hview]
    exact hc.ok.addDesc hlive
  · rw [hview]
    exact hc.envs
  · intro c' dbc' hdbc'
    rw [hview]
    dsimp only at hdbc'
    rw [Store.put_apply] at hdbc'
    split_ifs at hdbc' with heq
    · cases hdbc'
      exact heq ▸ hc.stmts c dbc hdbc
    · exact hc.stmts c' dbc' hdbc'
  · intro c' dbc' hdbc'
    rw [hview]
    dsimp only at hdbc'
    rw [Store.put_apply] at hdbc'
    split_ifs at hdbc' with heq
    · cases hdbc'
      have hnew : ¬ h.view.DescOf c h.next := by
        rintro ⟨desc, hd, -⟩
        exact Option.some_ne_none _ (hd.symm.trans hnext.2.2.2)
      refine ((hc.descs c dbc hdbc).add hnew).congr fun d => ?_
      rw [hdescOf, heq]
      simp
    · refine (hc.descs c' dbc' hdbc').congr fun d => ?_
      rw [hdescOf]
      simp [heq]
  · intro d desc hd
    rw [hview]
    dsimp only at hd
    rw [Store.put_apply] at hd
    split_ifs at hd with heq
    · cases hd
      refine lists_nil fun s huses => ?_
      obtain ⟨st, slot, -, -, hd⟩ := hc.ok.uses huses
      rw [heq] at hd
      exact Option.some_ne_none _ (hd.symm.trans hnext.2.2.2)
    · exact hc.uses d desc hd

/-- A statement uses a descriptor of the application for what it is used for. -/
theorem Consistent.slot_of_uses (hc : h.Consistent) {st : StmtHandle} {desc : DescHandle}
    (hs : h.stmts s = some st) (hd : h.descs d = some desc) (hslot : st.app slot = .user d) :
    desc.descType = slot.descType ∧ desc.dbc = st.dbc := by
  have hfits := hc.ok.app s _ (view_stmts_eq_some.mpr ⟨st, hs, rfl⟩) slot
  dsimp only at hfits
  rw [hslot] at hfits
  change (h.descs d).map _ = _ at hfits
  rw [hd, Option.map_some, Option.some_inj] at hfits
  exact ⟨congrArg DescView.descType hfits, congrArg DescView.dbc hfits⟩

theorem descType_injective {slot slot' : AppSlot} (heq : slot.descType = slot'.descType) :
    slot = slot' := by
  cases slot <;> cases slot' <;> first | rfl | cases heq

/-- The loop of `my_SQLFreeDesc`. -/
theorem detachAll_eq {list : List ℕ} (hnodup : list.Nodup)
    (hlive : ∀ s ∈ list, ∃ st, h.stmts s = some st) :
    detachAll (some slot) list h = some { h with
      stmts := fun s => (h.stmts s).map fun st =>
        if s ∈ list then { st with app := Function.update st.app slot (.own s slot.imp) }
        else st } := by
  induction list generalizing h with
  | nil =>
    refine congrArg some (Handles.ext rfl rfl rfl ?_ rfl)
    funext s
    simp
  | cons s rest ih =>
    obtain ⟨hs, hnodup⟩ := List.nodup_cons.mp hnodup
    obtain ⟨st, hst⟩ := hlive s List.mem_cons_self
    have hrest : ∀ s' ∈ rest, ∃ st', h.stmts.put s
        { st with app := Function.update st.app slot (.own s slot.imp) } s' = some st' := by
      intro s' hs'
      have hne : s' ≠ s := fun heq => hs (heq ▸ hs')
      rw [Store.put_of_ne hne]
      exact hlive s' (List.mem_cons_of_mem _ hs')
    rw [detachAll, hst, Option.bind_eq_bind, Option.bind_some]
    dsimp only [Option.elim_some]
    rw [ih hnodup hrest, Option.some_inj]
    refine Handles.ext rfl rfl rfl ?_ rfl
    funext s'
    dsimp only
    rw [Store.put_apply]
    by_cases heq : s' = s
    · subst heq
      simp [hs, hst]
    · simp [heq]

/-- Without a descriptor of the application: the statements that used it use their own. -/
def withoutDesc (h : Handles) (d : ℕ) : Handles :=
  { h with
    dbcs := h.dbcs.map fun dbc => { dbc with descList := dbc.descList.filter (· ≠ d) }
    stmts := fun s => (h.stmts s).map fun st =>
      { st with app := fun slot =>
          if st.app slot = .user d then .own s slot.imp else st.app slot }
    descs := h.descs.drop d }

/-- The statements in the list of a descriptor are those that are detached. -/
theorem Consistent.detachAll (hc : h.Consistent) {desc : DescHandle}
    (hd : h.descs d = some desc) (dbcs : Store ℕ DbcHandle) :
    Handles.detachAll (DescHandle.slot desc) desc.stmtList { h with dbcs := dbcs } =
      some { h with dbcs := dbcs, stmts := (h.withoutDesc d).stmts } := by
  have hlists := hc.uses d desc hd
  have happ := (hc.user d desc hd).2.1
  have hkind : ∀ slot : AppSlot, desc.descType = slot.descType →
      DescHandle.slot desc = some slot := by
    intro slot htype
    rw [DescHandle.slot, happ, htype]
    cases slot <;> rfl
  have hother : ∀ s st slot, h.stmts s = some st → st.app slot = .user d →
      desc.descType = slot.descType :=
    fun s st slot hs hslot => (hc.slot_of_uses hs hd hslot).1
  have hunused : ∀ s st, h.stmts s = some st → s ∉ desc.stmtList →
      (fun slot => if st.app slot = .user d then DescPtr.own s slot.imp else st.app slot) =
        st.app := by
    intro s st hs hnot
    funext slot
    refine if_neg fun hslot => hnot ((hlists.mem_iff s).mpr ?_)
    exact uses_iff.mpr ⟨st, slot, hs, hslot⟩
  cases hlist : desc.stmtList with
  | nil =>
    refine congrArg some (Handles.ext rfl rfl rfl ?_ rfl)
    funext s
    change h.stmts s = (h.stmts s).map _
    cases hs : h.stmts s with
    | none => rfl
    | some st => rw [Option.map_some, hunused s st hs (hlist ▸ List.not_mem_nil)]
  | cons s₀ rest =>
    obtain ⟨st₀, slot, hs₀, hslot₀⟩ := uses_iff.mp
      ((hlists.mem_iff s₀).mp (hlist ▸ List.mem_cons_self))
    have htype := hother s₀ st₀ slot hs₀ hslot₀
    have hlive : ∀ s ∈ desc.stmtList, ∃ st, h.stmts s = some st := by
      intro s hs
      obtain ⟨st, -, hst, -⟩ := uses_iff.mp ((hlists.mem_iff s).mp hs)
      exact ⟨st, hst⟩
    rw [hkind slot htype, ← hlist, @detachAll_eq { h with dbcs := dbcs } _ _ hlists.nodup hlive]
    refine congrArg some (Handles.ext rfl rfl rfl ?_ rfl)
    funext s
    change (h.stmts s).map _ = (h.stmts s).map _
    cases hs : h.stmts s with
    | none => rfl
    | some st =>
      rw [Option.map_some, Option.map_some]
      split_ifs with hin
      · obtain ⟨st', slot', hst', hslot'⟩ := uses_iff.mp ((hlists.mem_iff s).mp hin)
        obtain rfl := Option.some.inj (hs.symm.trans hst')
        obtain rfl := descType_injective (htype.symm.trans (hother s st slot' hs hslot'))
        refine congrArg (fun app => some { st with app := app }) (funext fun slot' => ?_)
        rw [Function.update_apply]
        by_cases heq : slot' = slot
        · rw [heq, if_pos rfl, if_pos hslot']
        · rw [if_neg heq, if_neg]
          exact fun huses => heq (descType_injective
            ((hother s st slot' hs huses).symm.trans htype))
      · rw [hunused s st hs hin]

theorem view_withoutDesc : (h.withoutDesc d).view = (h.view.step (.freeDesc (.user d))).1 := by
  refine HandleView.ext rfl rfl ?_ ?_ Store.map_drop
  · funext c
    change ((h.dbcs c).map _).map _ = (h.dbcs c).map _
    rw [Option.map_map]
    rfl
  · funext s
    change ((h.stmts s).map _).map _ = ((h.stmts s).map _).map _
    rw [Option.map_map, Option.map_map]
    rfl

/-- The lists are right when a descriptor of the application is deleted. -/
theorem Consistent.withoutDesc (hc : h.Consistent) (hlive : h.view.descs d ≠ none) :
    (h.withoutDesc d).Consistent := by
  have hview := @view_withoutDesc h d
  have hok := hc.ok.step (.freeDesc (.user d)) hlive trivial
  have hstmts : ∀ s st', (h.withoutDesc d).stmts s = some st' → ∃ st, h.stmts s = some st ∧
      st'.dbc = st.dbc ∧ st'.desc = st.desc ∧
      ∀ slot, st'.app slot = if st.app slot = .user d then .own s slot.imp else st.app slot := by
    intro s st' hs
    obtain ⟨st, hst, rfl⟩ := Option.map_eq_some_iff.mp hs
    exact ⟨st, hst, rfl, rfl, fun slot => rfl⟩
  have hdrop : ∀ d' desc, (h.withoutDesc d).descs d' = some desc →
      d' ≠ d ∧ h.descs d' = some desc := by
    intro d' desc hd
    change h.descs.drop d d' = some desc at hd
    rw [Store.drop_apply] at hd
    split_ifs at hd with hne
    exact ⟨hne, hd⟩
  refine ⟨⟨?_, fun d' desc hd => hc.user d' desc (hdrop d' desc hd).2⟩, ?_, ?_, ?_, ?_, ?_⟩
  · intro s st' hs
    obtain ⟨st, hst, hdbc, hdesc, -⟩ := hstmts s st' hs
    rw [hdesc, hdbc]
    exact hc.own s st hst
  · rw [hview]
    exact hok
  · rw [hview]
    exact hc.envs
  · intro c dbc hdbc
    obtain ⟨before, hbefore, rfl⟩ := Option.map_eq_some_iff.mp hdbc
    refine (hc.stmts c before hbefore).congr fun s => ?_
    rw [stmtOf_iff, stmtOf_iff]
    constructor
    · rintro ⟨st, hs, hof⟩
      exact ⟨_, Option.map_eq_some_iff.mpr ⟨st, hs, rfl⟩, hof⟩
    · rintro ⟨st', hs, hof⟩
      obtain ⟨st, hst, hdbc, -⟩ := hstmts s st' hs
      exact ⟨st, hst, hdbc ▸ hof⟩
  · intro c dbc hdbc
    obtain ⟨before, hbefore, rfl⟩ := Option.map_eq_some_iff.mp hdbc
    refine ((hc.descs c before hbefore).remove d).congr fun d' => ?_
    rw [descOf_iff, descOf_iff]
    constructor
    · rintro ⟨⟨desc, hd, hof⟩, hne⟩
      exact ⟨desc, (Store.drop_of_ne hne).trans hd, hof⟩
    · rintro ⟨desc, hd, hof⟩
      obtain ⟨hne, hd⟩ := hdrop d' desc hd
      exact ⟨⟨desc, hd, hof⟩, hne⟩
  · intro d' desc hd
    obtain ⟨hne, hd⟩ := hdrop d' desc hd
    refine (hc.uses d' desc hd).congr fun s => ?_
    rw [uses_iff, uses_iff]
    constructor
    · rintro ⟨st, slot, hs, hslot⟩
      refine ⟨_, slot, Option.map_eq_some_iff.mpr ⟨st, hs, rfl⟩, ?_⟩
      exact (if_neg fun heq => hne (DescPtr.user.inj (hslot.symm.trans heq))).trans hslot
    · rintro ⟨st', slot, hs, hslot⟩
      obtain ⟨st, hst, -, -, happ⟩ := hstmts s st' hs
      rw [happ] at hslot
      split_ifs at hslot with hused
      exact ⟨st, slot, hst, hslot⟩

/-- `my_SQLFreeDesc`. -/
theorem Consistent.mySQLFreeDesc (hc : h.Consistent) (hlive : h.view.Live p) :
    ∃ h', h.mySQLFreeDesc p = some (h', (h.view.step (.freeDesc p)).2) ∧ h'.Consistent ∧
      h'.view = (h.view.step (.freeDesc p)).1 := by
  cases p with
  | own s kind =>
    obtain ⟨st, hs⟩ := view_ne_none.mp hlive
    have hdesc : h.descAt (.own s kind) = some (ownDesc s st.dbc kind) := by
      rw [descAt, hs, Option.map_some, hc.own s st hs]
    obtain ⟨dbc, hdbc⟩ := view_ne_none.mp
      (hc.ok.stmts s _ (view_stmts_eq_some.mpr ⟨st, hs, rfl⟩))
    have hdbc : h.dbcs (ownDesc s st.dbc kind).dbc = some dbc := hdbc
    refine ⟨h, ?_, hc, rfl⟩
    rw [Handles.mySQLFreeDesc, hdesc, Option.bind_eq_bind, Option.bind_some, hdbc,
      Option.bind_eq_bind, Option.bind_some, if_pos (by exact AllocType.noConfusion)]
    rfl
  | user d =>
    obtain ⟨desc, hd⟩ := view_ne_none.mp hlive
    have hdesc : h.descAt (.user d) = some desc := hd
    have hof := hc.ok.descs d ⟨desc.dbc, desc.descType⟩ (Option.map_eq_some_iff.mpr ⟨desc, hd, rfl⟩)
    obtain ⟨dbc, hdbc⟩ := view_ne_none.mp hof
    have hdbc : h.dbcs desc.dbc = some dbc := hdbc
    have hdbcs : h.dbcs.put desc.dbc { dbc with descList := dbc.descList.filter (· ≠ d) } =
        (h.withoutDesc d).dbcs := by
      funext c
      change _ = (h.dbcs c).map _
      rw [Store.put_apply]
      split_ifs with heq
      · rw [heq, hdbc]
        rfl
      cases hother : h.dbcs c with
      | none => rfl
      | some other =>
        have hlist := filter_ne_eq_self (hc.descs c other hother) fun hof => by
          obtain ⟨desc', hd', hof⟩ := descOf_iff.mp hof
          obtain rfl := Option.some.inj (hd.symm.trans hd')
          exact heq hof.symm
        rw [Option.map_some, hlist]
    refine ⟨h.withoutDesc d, ?_, hc.withoutDesc hlive, view_withoutDesc⟩
    rw [Handles.mySQLFreeDesc, hdesc, Option.bind_eq_bind, Option.bind_some, hdbc,
      Option.bind_eq_bind, Option.bind_some, if_neg (not_not.mpr (hc.user d desc hd).1)]
    dsimp only
    rw [hc.detachAll hd, Option.bind_eq_bind, Option.bind_some, hdbcs]
    rfl

/-- A statement uses another descriptor for an attribute; the lists tell it. -/
def attach (h : Handles) (s : ℕ) (st : StmtHandle) (slot : AppSlot) (p : DescPtr) : Handles :=
  { h with
    stmts := h.stmts.put s { st with app := Function.update st.app slot p }
    descs := fun d => (h.descs d).map fun desc =>
      let kept := if st.app slot = .user d then desc.stmtList.filter (· ≠ s) else desc.stmtList
      { desc with
        stmtList := if p = .user d then kept ++ [s] else kept
        descType := if p = .user d then slot.descType else desc.descType } }

theorem view_attach {st : StmtHandle} (hs : h.stmts s = some st) :
    (h.attach s st slot p).view = (h.view.setType p slot.descType).setApp s slot p := by
  have hview : h.view.stmts s = some ⟨st.dbc, st.app⟩ := view_stmts_eq_some.mpr ⟨st, hs, rfl⟩
  have hsame : (h.view.setType p slot.descType).stmts = h.view.stmts := by cases p <;> rfl
  apply HandleView.ext (by cases p <;> rfl) (by cases p <;> rfl) (by cases p <;> rfl)
  · change (h.stmts.put s _).map _ = Function.update _ s _
    rw [Store.map_put, hsame, hview]
    rfl
  · funext d
    cases p with
    | own s' kind =>
      change ((h.descs d).map _).map _ = (h.descs d).map _
      rw [Option.map_map]
      refine congrArg (fun f => (h.descs d).map f) (funext fun desc => ?_)
      rfl
    | user d' =>
      change ((h.descs d).map _).map _ = Function.update h.view.descs d' _ d
      rw [Option.map_map, Function.update_apply]
      by_cases heq : d = d'
      · rw [if_pos heq, heq]
        change _ = ((h.descs d').map _).map _
        rw [Option.map_map]
        refine congrArg (fun f => (h.descs d').map f) (funext fun desc => ?_)
        simp
      · rw [if_neg heq]
        change _ = (h.descs d).map _
        refine congrArg (fun f => (h.descs d).map f) (funext fun desc => ?_)
        simp [Ne.symm heq]

/-- Who uses a descriptor when a statement uses another one. -/
theorem uses_attach {st : StmtHandle} (hs : h.stmts s = some st)
    (hold : ∀ slot', st.app slot' = .user d → st.app slot = .user d → slot' = slot) (x : ℕ) :
    (h.attach s st slot p).view.Uses d x ↔
      h.view.Uses d x ∧ ¬ (x = s ∧ st.app slot = .user d) ∨ x = s ∧ p = .user d := by
  rw [uses_iff, uses_iff]
  change (∃ st' slot', h.stmts.put s _ x = some st' ∧ st'.app slot' = .user d) ↔ _
  rw [Store.put_apply]
  by_cases heq : x = s
  · subst heq
    rw [if_pos rfl]
    constructor
    · rintro ⟨st', slot', hst', hslot'⟩
      cases hst'
      dsimp only at hslot'
      rw [Function.update_apply] at hslot'
      split_ifs at hslot' with hsame
      · exact Or.inr ⟨rfl, hslot'⟩
      · exact Or.inl ⟨⟨st, slot', hs, hslot'⟩, fun h => hsame (hold slot' hslot' h.2)⟩
    · rintro (⟨⟨st', slot', hst', hslot'⟩, hnot⟩ | ⟨-, hp⟩)
      · obtain rfl := Option.some.inj (hs.symm.trans hst')
        have hne : slot' ≠ slot := fun heq => hnot ⟨rfl, heq ▸ hslot'⟩
        exact ⟨_, slot', rfl, (Function.update_of_ne hne ..).trans hslot'⟩
      · exact ⟨_, slot, rfl, (Function.update_self ..).trans hp⟩
  · rw [if_neg heq]
    simp [heq]

/-- The lists are right when a statement uses another descriptor that it may use. -/
theorem Consistent.attach (hc : h.Consistent) {st : StmtHandle} (hs : h.stmts s = some st)
    (hlive : h.view.Live p) (hrefusal : h.view.refusal s st.dbc slot p = none) :
    (h.attach s st slot p).Consistent := by
  have hview : (h.attach s st slot p).view = (h.view.setType p slot.descType).setApp s slot p :=
    view_attach hs
  have hstmt : h.view.stmts s = some ⟨st.dbc, st.app⟩ := view_stmts_eq_some.mpr ⟨st, hs, rfl⟩
  have hok := hc.ok.use hstmt hlive hrefusal
  have hsame : ∀ d, h.view.descs d ≠ none → ∀ slot', st.app slot' = .user d →
      st.app slot = .user d → slot' = slot := by
    intro d hd slot' hslot' hslot
    obtain ⟨desc, hd⟩ := view_ne_none.mp hd
    exact descType_injective ((hc.slot_of_uses hs hd hslot').1.symm.trans
      (hc.slot_of_uses hs hd hslot).1)
  have hnew : ∀ d, p = .user d → ∀ slot', st.app slot' = .user d → slot' = slot :=
    fun d hp slot' hslot' =>
      descType_injective (hc.ok.uses_of_refusal hrefusal d s _ slot' hp hstmt hslot')
  refine ⟨⟨?_, ?_⟩, ?_, ?_, ?_, ?_, ?_⟩
  · intro s' st' hs'
    change h.stmts.put s _ s' = some st' at hs'
    rw [Store.put_apply] at hs'
    split_ifs at hs' with heq
    · cases hs'
      exact heq ▸ hc.own s st hs
    · exact hc.own s' st' hs'
  · intro d desc hd
    obtain ⟨before, hbefore, rfl⟩ := Option.map_eq_some_iff.mp hd
    exact hc.user d before hbefore
  · rw [hview]
    exact hok
  · intro e env he
    have hdbcs : (h.attach s st slot p).view.dbcs = h.view.dbcs := rfl
    rw [hdbcs]
    exact hc.envs e env he
  · intro c dbc hdbc
    refine (hc.stmts c dbc hdbc).congr fun s' => ?_
    rw [stmtOf_iff, stmtOf_iff]
    change _ ↔ ∃ st', h.stmts.put s _ s' = some st' ∧ _
    rw [Store.put_apply]
    split_ifs with heq
    · rw [heq, hs]
      simp
    · rfl
  · intro c dbc hdbc
    refine (hc.descs c dbc hdbc).congr fun d => ?_
    rw [descOf_iff, descOf_iff]
    constructor
    · rintro ⟨desc, hd, hof⟩
      exact ⟨_, Option.map_eq_some_iff.mpr ⟨desc, hd, rfl⟩, hof⟩
    · rintro ⟨desc, hd, hof⟩
      obtain ⟨before, hbefore, rfl⟩ := Option.map_eq_some_iff.mp hd
      exact ⟨before, hbefore, hof⟩
  · intro d desc hd
    obtain ⟨before, hbefore, rfl⟩ := Option.map_eq_some_iff.mp hd
    have hlists := hc.uses d before hbefore
    have hlived : h.view.descs d ≠ none := view_ne_none.mpr ⟨before, hbefore⟩
    have huses := uses_attach (p := p) hs (hsame d hlived)
    by_cases hslot : st.app slot = .user d
    · have hkept := hlists.remove s
      by_cases hp : p = .user d
      · refine Lists.congr ?_ fun x => (huses x).symm
        simp only [if_pos hslot, if_pos hp]
        refine (hkept.add (k := s) fun h => h.2 rfl).congr fun x => ?_
        simp [hslot, hp]
      · refine Lists.congr ?_ fun x => (huses x).symm
        simp only [if_pos hslot, if_neg hp]
        refine hkept.congr fun x => ?_
        simp [hslot, hp]
    · by_cases hp : p = .user d
      · refine Lists.congr ?_ fun x => (huses x).symm
        simp only [if_neg hslot, if_pos hp]
        have hnot : ¬ h.view.Uses d s := by
          intro hused
          obtain ⟨st', slot', hst', hslot'⟩ := uses_iff.mp hused
          obtain rfl := Option.some.inj (hs.symm.trans hst')
          exact hslot (hnew d hp slot' hslot' ▸ hslot')
        refine (hlists.add hnot).congr fun x => ?_
        simp [hslot, hp]
      · refine Lists.congr ?_ fun x => (huses x).symm
        simp only [if_neg hslot, if_neg hp]
        refine hlists.congr fun x => ?_
        simp [hslot, hp]

/-- Taking a statement out of the list of the descriptor it used is a part of using another. -/
theorem attach_eq {st : StmtHandle} (hp : ∀ d, p ≠ .user d) :
    { h.unlist (st.app slot) s with
      stmts := h.stmts.put s { st with app := Function.update st.app slot p } } =
      h.attach s st slot p := by
  refine Handles.ext unlist_next unlist_envs unlist_dbcs rfl ?_
  funext d
  change (h.unlist (st.app slot) s).descs d = (h.descs d).map _
  rw [descs_unlist_apply]
  by_cases hslot : st.app slot = .user d
  · simp only [if_pos hslot, if_neg (hp d)]
  · simp [hslot, hp d]

/-- An attribute without a descriptor brings back the statement's own. -/
theorem Consistent.setStmtAttrDesc_null (hc : h.Consistent) {st : StmtHandle}
    (hs : h.stmts s = some st) :
    h.mySQLSetStmtAttrDesc s slot none =
      some (h.attach s st slot (.own s slot.imp), .success) := by
  have hremoved := hc.stmtListRemove (hc.live_app hs slot) s
  rw [mySQLSetStmtAttrDesc, hs, Option.bind_eq_bind, Option.bind_some, hremoved,
    Option.bind_eq_bind, Option.bind_some]
  dsimp only
  rw [setApp, unlist_stmts, hs, ← attach_eq (by exact fun d => DescPtr.noConfusion)]
  rfl

/-- The checks of the driver are those an application knows. -/
theorem Consistent.refusal_eq (hc : h.Consistent) (s c : ℕ) (slot : AppSlot) {desc : DescHandle}
    (hd : h.descAt p = some desc) :
    Handles.refusal s c slot desc = h.view.refusal s c slot p := by
  cases p with
  | own s' kind =>
    obtain ⟨st, hs, rfl⟩ := Option.map_eq_some_iff.mp hd
    have hknown : kind.descType ≠ .unknown := by cases kind <;> exact DescDescType.noConfusion
    rw [hc.own s' st hs]
    simp [Handles.refusal, HandleView.refusal, ownDesc, hknown]
  | user d =>
    have hd : h.descs d = some desc := hd
    have hview : h.view.descs d = some ⟨desc.dbc, desc.descType⟩ :=
      Option.map_eq_some_iff.mpr ⟨desc, hd, rfl⟩
    rw [HandleView.refusal, hview, Option.bind_some, Handles.refusal]
    simp [(hc.user d desc hd).1]

/-- The descriptor when a statement has been taken out of the list of another or of its own. -/
theorem descAt_unlist {desc : DescHandle} (hd : h.descAt p = some desc) (q : DescPtr) :
    ∃ stmtList, (h.unlist q s).descAt p = some { desc with stmtList := stmtList } := by
  cases p with
  | own s' kind => exact ⟨desc.stmtList, by rw [← hd, descAt, descAt, unlist_stmts]⟩
  | user d =>
    have hd : h.descs d = some desc := hd
    refine ⟨if q = .user d then desc.stmtList.filter (· ≠ s) else desc.stmtList, ?_⟩
    change (h.unlist q s).descs d = _
    rw [descs_unlist_apply, hd, Option.map_some]
    split_ifs <;> rfl

/-- Before a descriptor is looked at, the statement is taken out of the list of the one it has. -/
theorem Consistent.setStmtAttrDesc_eq (hc : h.Consistent) {st : StmtHandle}
    (hs : h.stmts s = some st) {desc : DescHandle}
    (hd : (h.unlist (st.app slot) s).descAt p = some desc) :
    h.mySQLSetStmtAttrDesc s slot (some p) =
      (h.view.refusal s st.dbc slot p).elim
        (((h.unlist (st.app slot) s).setDesc p { desc with
          stmtList := if desc.allocType = .user then desc.stmtList ++ [s] else desc.stmtList
          descType := slot.descType }).setApp s slot p |>.map fun h => (h, .success))
        fun e => some (h.unlist (st.app slot) s, .error e) := by
  have hremoved := hc.stmtListRemove (hc.live_app hs slot) s
  have hchecks : Handles.refusal s st.dbc slot desc = h.view.refusal s st.dbc slot p := by
    cases p with
    | own s' kind =>
      rw [descAt, unlist_stmts] at hd
      exact hc.refusal_eq s st.dbc slot hd
    | user d =>
      change (h.unlist (st.app slot) s).descs d = some desc at hd
      rw [descs_unlist_apply] at hd
      split_ifs at hd
      · obtain ⟨before, hbefore, rfl⟩ := Option.map_eq_some_iff.mp hd
        have hbefore : h.descAt (.user d) = some before := hbefore
        rw [← hc.refusal_eq s st.dbc slot hbefore]
        rfl
      · have hd : h.descAt (.user d) = some desc := hd
        exact hc.refusal_eq s st.dbc slot hd
  rw [mySQLSetStmtAttrDesc, hs, Option.bind_eq_bind, Option.bind_some, hremoved,
    Option.bind_eq_bind, Option.bind_some]
  dsimp only
  rw [hd, Option.bind_eq_bind, Option.bind_some, hchecks]
  cases h.view.refusal s st.dbc slot p with
  | some e => rfl
  | none =>
    dsimp only [Option.elim]
    rw [Option.map_eq_bind]
    rfl

/-- Writing a statement's own descriptor as it is changes nothing. -/
theorem setDesc_own_self {kind : DescKind} {desc : DescHandle}
    (hd : h.descAt (.own s kind) = some desc) : h.setDesc (.own s kind) desc = h := by
  obtain ⟨st, hs, rfl⟩ := Option.map_eq_some_iff.mp hd
  rw [setDesc, hs]
  dsimp only
  rw [Function.update_eq_self, Store.put_eq_self hs]

/-- The attribute is set when the descriptor is not refused. -/
theorem Consistent.setStmtAttrDesc_accepted (hc : h.Consistent) {st : StmtHandle}
    (hs : h.stmts s = some st) (hlive : h.view.Live p)
    (hrefusal : h.view.refusal s st.dbc slot p = none) :
    h.mySQLSetStmtAttrDesc s slot (some p) = some (h.attach s st slot p, .success) := by
  obtain ⟨desc, hd⟩ := exists_descAt hlive
  cases p with
  | own s' kind =>
    have hsame : (h.unlist (st.app slot) s).descAt (.own s' kind) = some desc := by
      rw [← hd, descAt, descAt, unlist_stmts]
    rw [HandleView.refusal] at hrefusal
    split_ifs at hrefusal with hown hkind
    rw [not_not] at hown hkind
    subst hown
    have hdesc : desc = ownDesc s' st.dbc kind := by
      rw [descAt, hs, Option.map_some, hc.own s' st hs] at hd
      exact (Option.some.inj hd).symm
    have hkept : ({ desc with
        stmtList := if desc.allocType = .user then desc.stmtList ++ [s'] else desc.stmtList
        descType := slot.descType } : DescHandle) = desc := by
      rw [hdesc, ← hkind]
      rfl
    rw [hc.setStmtAttrDesc_eq hs hsame, HandleView.refusal, if_neg (not_not.mpr rfl),
      if_neg (not_not.mpr hkind), Option.elim_none, hkept, setDesc_own_self hsame, setApp,
      unlist_stmts, hs, ← attach_eq (by exact fun d => DescPtr.noConfusion)]
    rfl
  | user d =>
    have hd : h.descs d = some desc := hd
    have hlist : (h.unlist (st.app slot) s).descAt (.user d) = some { desc with
        stmtList := if st.app slot = .user d then desc.stmtList.filter (· ≠ s)
          else desc.stmtList } := by
      change (h.unlist (st.app slot) s).descs d = _
      rw [descs_unlist_apply, hd, Option.map_some]
      split_ifs <;> rfl
    rw [hc.setStmtAttrDesc_eq hs hlist, hrefusal, Option.elim_none, setDesc, setApp]
    dsimp only
    rw [unlist_stmts, hs, Option.bind_eq_bind, Option.bind_some, Option.map_some]
    refine congrArg (fun h => some (h, HandleReply.success)) ?_
    refine Handles.ext unlist_next unlist_envs unlist_dbcs rfl ?_
    funext d'
    change Store.put _ d _ d' = (h.descs d').map _
    rw [Store.put_apply]
    by_cases heq : d' = d
    · subst heq
      rw [if_pos rfl, hd, Option.map_some]
      simp [(hc.user d' desc hd).1]
    · have hne : ¬ DescPtr.user d = .user d' := fun h => heq (DescPtr.user.inj h).symm
      rw [if_neg heq, descs_unlist_apply]
      simp only [if_neg hne]
      split_ifs
      · rfl
      · exact Option.map_id'.symm

/-- The attribute is left alone when the descriptor is refused, but the statement has been taken
out of the list of the descriptor that it uses. -/
theorem Consistent.setStmtAttrDesc_refused (hc : h.Consistent) {st : StmtHandle}
    (hs : h.stmts s = some st) (hlive : h.view.Live p) {e : HandleError}
    (hrefusal : h.view.refusal s st.dbc slot p = some e) :
    h.mySQLSetStmtAttrDesc s slot (some p) = some (h.unlist (st.app slot) s, .error e) := by
  obtain ⟨desc, hd⟩ := exists_descAt hlive
  obtain ⟨stmtList, hlist⟩ := descAt_unlist (s := s) hd (st.app slot)
  rw [hc.setStmtAttrDesc_eq hs hlist, hrefusal, Option.elim_some]

/-- Environments may change, and handles of connections stay in their lists. -/
theorem Consistent.withEnvs (hc : h.Consistent) {envs : Store ℕ EnvHandle} {next : ℕ}
    (hok : { h with envs := envs, next := next }.view.Ok)
    (hlists : ∀ e env, envs e = some env →
      Lists env.connList fun c => h.view.dbcs c = some e) :
    { h with envs := envs, next := next }.Consistent :=
  ⟨⟨hc.own, hc.user⟩, hok, hlists, hc.stmts, hc.descs, hc.uses⟩

/-- `my_SQLAllocEnv`. -/
theorem Consistent.mySQLAllocEnv (hc : h.Consistent) :
    ∃ h', h.mySQLAllocEnv = some (h', .handle h.next) ∧ h'.Consistent ∧
      h'.view = (h.view.step .allocEnv).1 := by
  have hview : ({ h with
      next := h.next + 1
      envs := h.envs.put h.next ⟨SQL_OV_ODBC3_80, []⟩ } : Handles).view =
      (h.view.step .allocEnv).1 := HandleView.ext rfl Store.map_put rfl rfl rfl
  refine ⟨_, rfl, hc.withEnvs ?_ fun e env he => ?_, hview⟩
  · rw [hview]
    exact hc.ok.step .allocEnv trivial trivial
  · rw [Store.put_apply] at he
    split_ifs at he with heq
    · cases he
      refine lists_nil fun c hdbc => ?_
      exact hc.ok.dbcs c e hdbc (heq ▸ hc.ok.next_none.1)
    · exact hc.envs e env he

/-- `my_SQLFreeEnv`. -/
theorem Consistent.mySQLFreeEnv (hc : h.Consistent) (hlegal : h.view.Legal (.freeEnv e)) :
    ∃ h', h.mySQLFreeEnv e = some (h', .success) ∧ h'.Consistent ∧
      h'.view = (h.view.step (.freeEnv e)).1 := by
  obtain ⟨env, henv⟩ := view_ne_none.mp hlegal.1
  have hview : ({ h with envs := h.envs.drop e } : Handles).view =
      (h.view.step (.freeEnv e)).1 := HandleView.ext rfl Store.map_drop rfl rfl rfl
  rw [Handles.mySQLFreeEnv, henv, Option.bind_eq_bind, Option.bind_some]
  refine ⟨_, rfl, hc.withEnvs ?_ fun e' env' he => ?_, hview⟩
  · rw [hview]
    exact hc.ok.step (.freeEnv e) hlegal trivial
  · rw [Store.drop_apply] at he
    split_ifs at he
    exact hc.envs e' env' he

/-- `SQLSetEnvAttr` refuses an environment with connections. -/
theorem Consistent.sqlSetEnvAttr (hc : h.Consistent) (hlive : h.view.envs e ≠ none)
    (attr value : ℤ) :
    ∃ h', h.sqlSetEnvAttr e attr value =
        some (h', (h.view.step (.setEnvAttr e attr value)).2) ∧ h'.Consistent ∧
      h'.view = (h.view.step (.setEnvAttr e attr value)).1 := by
  obtain ⟨env, henv⟩ := view_ne_none.mp hlive
  have hver : h.view.envs e = some env.odbcVer := by
    change (h.envs e).map _ = _
    rw [henv, Option.map_some]
  have hlist := hc.envs e env henv
  have hok := hc.ok.step (.setEnvAttr e attr value) hlive trivial
  rw [HandleView.step] at hok ⊢
  rw [Handles.sqlSetEnvAttr, henv, Option.bind_eq_bind, Option.bind_some]
  by_cases hempty : env.connList = []
  · have hnone : ¬ ∃ c, h.view.dbcs c = some e := not_exists.mpr (hlist.eq_nil_iff.mp hempty)
    rw [if_neg (not_not.mpr hempty), if_neg hnone, hver, Option.getD_some]
    rw [if_neg hnone, hver, Option.getD_some] at hok
    generalize envAttr attr value env.odbcVer = result at hok ⊢
    obtain ⟨odbcVer, reply⟩ := result
    have hview : ∀ ver : ℤ, ({ h with
        envs := h.envs.put e { env with odbcVer := ver } } : Handles).view =
        { h.view with envs := h.view.envs.put e ver } :=
      fun ver => HandleView.ext rfl Store.map_put rfl rfl rfl
    refine ⟨_, rfl, hc.withEnvs ?_ fun e' env' he => ?_, hview _⟩
    · rw [hview]
      exact hok
    · rw [Store.put_apply] at he
      split_ifs at he with heq
      · cases he
        exact heq ▸ hlist
      · exact hc.envs e' env' he
  · have hsome : ∃ c, h.view.dbcs c = some e := by
      by_contra hnone
      exact hempty (hlist.eq_nil_iff.mpr (not_exists.mp hnone))
    rw [if_pos hempty, if_pos hsome]
    exact ⟨h, rfl, hc, rfl⟩

/-- Only a statement's own descriptor can be an implementation row descriptor. -/
theorem Shaped.isIrd_iff (hc : h.Shaped) {desc : DescHandle} (hd : h.descAt p = some desc) :
    DescHandle.isIrd desc = true ↔ ∃ s, p = .own s .ird := by
  cases p with
  | own s kind =>
    obtain ⟨st, hs, rfl⟩ := Option.map_eq_some_iff.mp hd
    rw [hc.own s st hs]
    cases kind <;> simp [DescHandle.isIrd, ownDesc, DescKind.descType, DescKind.refType]
  | user d =>
    have huser := (hc.user d desc hd).2.1
    simp [DescHandle.isIrd, huser]

/-- `SQLCopyDesc` copies all fields of the source unless it is refused. -/
theorem Shaped.mySQLCopyDesc (hc : h.Shaped) {src dest : DescPtr} {source : DescHandle}
    (hsource : h.descAt src = some source) (hdest : h.view.Live dest) (prepared : Bool) :
    h.mySQLCopyDesc src dest prepared =
      some ((HandleView.copyError src dest prepared).elim (h.setDesc dest source, .success)
        fun e => (h, .error e)) := by
  obtain ⟨target, htarget⟩ := exists_descAt hdest
  have hsrcIrd := hc.isIrd_iff hsource
  have hdestIrd := hc.isIrd_iff htarget
  rw [Handles.mySQLCopyDesc, hsource, htarget, Option.bind_eq_bind, Option.bind_some,
    Option.bind_eq_bind, Option.bind_some]
  by_cases hird : ∃ s, dest = .own s .ird
  · rw [if_pos (hdestIrd.mpr hird)]
    obtain ⟨s, rfl⟩ := hird
    rfl
  rw [if_neg fun h => hird (hdestIrd.mp h)]
  by_cases hird' : ∃ s, src = .own s .ird
  · rw [if_pos (hsrcIrd.mpr hird')]
    obtain ⟨s, rfl⟩ := hird'
    obtain ⟨st, hs, rfl⟩ := Option.map_eq_some_iff.mp hsource
    have hstmt : (st.desc .ird).stmt = some s := by rw [hc.own s st hs]; rfl
    rw [hstmt, Option.bind_eq_bind, Option.bind_some, hs, Option.bind_some]
    cases dest with
    | own s' kind =>
      cases kind
      case ird => exact (hird ⟨s', rfl⟩).elim
      all_goals cases prepared <;> rfl
    | user d => cases prepared <;> rfl
  · rw [if_neg fun h => hird' (hsrcIrd.mp h)]
    unfold HandleView.copyError
    split
    · exact (hird ⟨_, rfl⟩).elim
    · exact (hird' ⟨_, rfl⟩).elim
    · rfl

/-- Writing the descriptor of the application as it is changes nothing. -/
theorem setDesc_self {desc : DescHandle} (hd : h.descAt p = some desc) :
    h.setDesc p desc = h := by
  cases p with
  | own s kind => exact setDesc_own_self hd
  | user d =>
    have hd : h.descs d = some desc := hd
    rw [setDesc, Store.put_eq_self hd]

/-- The objects with another `DESC` for a descriptor of the application. -/
theorem view_setDesc_user {desc : DescHandle} :
    (h.setDesc (.user d) desc).view =
      { h.view with descs := h.view.descs.put d ⟨desc.dbc, desc.descType⟩ } :=
  HandleView.ext rfl rfl rfl rfl Store.map_put

/-- The lists are right after a copy between descriptors that no statement uses. -/
theorem Consistent.copyDesc_unused (hc : h.Consistent) {d d' : ℕ} {source : DescHandle}
    (hsource : h.descs d = some source) (hdest : h.view.DescOf source.dbc d')
    (hunused : ∀ s, ¬ h.view.Uses d s) (hunused' : ∀ s, ¬ h.view.Uses d' s) :
    (h.setDesc (.user d') source).Consistent ∧
      (h.setDesc (.user d') source).view = h.view.copyType (.user d) (.user d') := by
  obtain ⟨target, htarget, hdbc⟩ := descOf_iff.mp hdest
  have hview : (h.setDesc (.user d') source).view = h.view.copyType (.user d) (.user d') := by
    rw [view_setDesc_user]
    refine HandleView.ext rfl rfl rfl rfl ?_
    change Store.put _ _ _ = Function.update h.view.descs d' ((h.view.descs d').map _)
    have hview : h.view.descs d = some ⟨source.dbc, source.descType⟩ :=
      Option.map_eq_some_iff.mpr ⟨source, hsource, rfl⟩
    have hview' : h.view.descs d' = some ⟨source.dbc, target.descType⟩ :=
      Option.map_eq_some_iff.mpr ⟨target, htarget, by rw [hdbc]⟩
    rw [hview, hview']
    rfl
  have hharmless : h.view.CopyHarmless (.user d) (.user d') :=
    Or.inr ⟨d, d', source.dbc, rfl, rfl, descOf_iff.mpr ⟨source, hsource, rfl⟩, hdest, hunused,
      hunused'⟩
  refine ⟨⟨⟨hc.own, fun d₁ desc hd => ?_⟩, ?_, hc.envs, hc.stmts, ?_, ?_⟩, hview⟩
  · change h.descs.put d' source d₁ = some desc at hd
    rw [Store.put_apply] at hd
    split_ifs at hd with heq
    · cases hd
      exact hc.user d source hsource
    · exact hc.user d₁ desc hd
  · rw [hview]
    exact hc.ok.copyType hharmless
  · intro c dbc hdbc'
    refine (hc.descs c dbc hdbc').congr fun d₁ => ?_
    rw [descOf_iff, descOf_iff]
    change _ ↔ ∃ desc, h.descs.put d' source d₁ = some desc ∧ _
    rw [Store.put_apply]
    split_ifs with heq
    · rw [heq, htarget]
      simp [hdbc]
    · rfl
  · intro d₁ desc hd
    change h.descs.put d' source d₁ = some desc at hd
    rw [Store.put_apply] at hd
    split_ifs at hd with heq
    · cases hd
      rw [(hc.uses d source hsource).eq_nil_iff.mpr hunused, heq]
      exact lists_nil hunused'
    · exact hc.uses d₁ desc hd

/-- `SQLCopyDesc` when the copy is harmless. -/
theorem Consistent.mySQLCopyDesc {src dest : DescPtr} (prepared : Bool) (hc : h.Consistent)
    (hlegal : h.view.Legal (.copyDesc src dest prepared))
    (hharmless : h.view.Harmless (.copyDesc src dest prepared)) :
    ∃ h', h.mySQLCopyDesc src dest prepared =
        some (h', (h.view.step (.copyDesc src dest prepared)).2) ∧ h'.Consistent ∧
      h'.view = (h.view.step (.copyDesc src dest prepared)).1 := by
  obtain ⟨source, hsource⟩ := exists_descAt hlegal.1
  rw [hc.toShaped.mySQLCopyDesc hsource hlegal.2, HandleView.step]
  cases herror : HandleView.copyError src dest prepared with
  | some e => exact ⟨h, rfl, hc, rfl⟩
  | none =>
    refine ⟨_, rfl, ?_⟩
    obtain rfl | ⟨d, d', c, rfl, rfl, hd, hd', hunused, hunused'⟩ := hharmless herror
    · rw [setDesc_self hsource]
      refine ⟨hc, ?_⟩
      cases src with
      | own s kind => rfl
      | user d =>
        have hd : h.view.descs d = some ⟨source.dbc, source.descType⟩ :=
          Option.map_eq_some_iff.mpr ⟨source, hsource, rfl⟩
        refine HandleView.ext rfl rfl rfl rfl ?_
        change h.view.descs = Function.update h.view.descs d ((h.view.descs d).map _)
        rw [hd]
        exact (Store.put_eq_self hd).symm
    · have hsource : h.descs d = some source := hsource
      obtain ⟨desc, hdesc, rfl⟩ := descOf_iff.mp hd
      obtain rfl := Option.some.inj (hsource.symm.trans hdesc)
      exact hc.copyDesc_unused hsource hd' hunused hunused'

end Handles

end MatrixOdbc.Driver
