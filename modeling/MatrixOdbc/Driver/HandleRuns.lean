import MatrixOdbc.Driver.HandleDescs

/-!
# Runs of handle calls

As long as the lists of the driver are right, no call uses freed memory, and every call does what
an application may rely on. Two kinds of calls make them wrong: an attribute that is refused while
the statement uses a descriptor of the application, and a copy between descriptors that are not
alike.
-/

namespace MatrixOdbc.Driver

open MyodbcErrid Registry

namespace Handles

variable {h : Handles}

/-- Before the first call there is nothing. -/
theorem consistent_empty : empty.Consistent where
  own s st hs := by cases hs
  user d desc hd := by cases hd
  ok := {
    dbcs := fun c e hc => by cases hc
    stmts := fun s st hs => by cases hs
    app := fun s st hs => by cases hs
    descs := fun d desc hd => by cases hd
    fresh := fun n hn => ⟨rfl, rfl, rfl, rfl⟩ }
  envs e env he := by cases he
  stmts c dbc hdbc := by cases hdbc
  descs c dbc hdbc := by cases hdbc
  uses d desc hd := by cases hd

/-- Every legal and harmless call does what an application may rely on. -/
theorem Consistent.step (hc : h.Consistent) {call : HandleCall} (hlegal : h.view.Legal call)
    (hharmless : h.view.Harmless call) :
    ∃ h', h.step call = some (h', (h.view.step call).2) ∧ h'.Consistent ∧
      h'.view = (h.view.step call).1 := by
  cases call with
  | allocEnv => exact hc.mySQLAllocEnv
  | freeEnv e => exact hc.mySQLFreeEnv hlegal
  | setEnvAttr e attr value => exact hc.sqlSetEnvAttr hlegal attr value
  | allocConnect e => exact hc.mySQLAllocConnect hlegal
  | freeConnect c => exact hc.mySQLFreeConnect hlegal.1 hlegal.2
  | disconnect c =>
    obtain ⟨h', hrun, hc', hview⟩ := hc.freeConnectionStmts hlegal
    exact ⟨h', by rw [Handles.step, sqlDisconnect, hrun]; rfl, hc', hview⟩
  | resetConnection c => exact hc.resetConnection hlegal
  | allocStmt c => exact hc.mySQLAllocStmt hlegal
  | dropStmt s =>
    have hrun := hc.mySQLFreeStmtDrop hlegal
    exact ⟨h.without s, by rw [Handles.step, hrun]; rfl, hc.without hlegal, view_without⟩
  | allocDesc c => exact hc.mySQLAllocDesc hlegal
  | freeDesc p => exact hc.mySQLFreeDesc hlegal
  | setAppDesc s slot value =>
    obtain ⟨st, hs⟩ := view_ne_none.mp hlegal.1
    have hstmt : h.view.stmts s = some ⟨st.dbc, st.app⟩ :=
      view_stmts_eq_some.mpr ⟨st, hs, rfl⟩
    cases value with
    | none =>
      have hlive : h.view.Live (.own s slot.imp) := hlegal.1
      have haccepted : h.view.refusal s st.dbc slot (.own s slot.imp) = none := by
        simp [HandleView.refusal, HandleView.imp_descType]
      exact ⟨_, hc.setStmtAttrDesc_null hs, hc.attach hs hlive haccepted, view_attach hs⟩
    | some p =>
      have hlive := hlegal.2 p rfl
      rw [HandleView.step, hstmt, Option.bind_some]
      cases hrefusal : h.view.refusal s st.dbc slot p with
      | none =>
        exact ⟨_, hc.setStmtAttrDesc_accepted hs hlive hrefusal, hc.attach hs hlive hrefusal,
          view_attach hs⟩
      | some e =>
        -- the statement uses its own descriptor, which has no list
        have hown : ∀ d, st.app slot ≠ .user d := fun d hd =>
          Option.some_ne_none e (hrefusal.symm.trans (hharmless _ d hstmt hd))
        have hsame : h.unlist (st.app slot) s = h := by
          cases hp : st.app slot with
          | own s' kind => rfl
          | user d => exact (hown d hp).elim
        refine ⟨h, ?_, hc, rfl⟩
        have hrun := hc.setStmtAttrDesc_refused hs hlive hrefusal
        rwa [hsame] at hrun
  | getAppDesc s slot =>
    obtain ⟨st, hs⟩ := view_ne_none.mp hlegal
    have hstmt : h.view.stmts s = some ⟨st.dbc, st.app⟩ :=
      view_stmts_eq_some.mpr ⟨st, hs, rfl⟩
    refine ⟨h, ?_, hc, rfl⟩
    rw [Handles.step, mySQLGetStmtAttrDesc, hs, HandleView.step, hstmt]
    rfl
  | copyDesc src dest prepared => exact hc.mySQLCopyDesc prepared hlegal hharmless

end Handles

/-- What an application may rely on, as a specification of the runs of the driver. -/
noncomputable def handleSpec : Refinement.Spec HandleView HandleCall HandleReply where
  next v call := (v.step call).1
  allowed v call := v.Legal call ∧ v.Harmless call
  right v call reply := reply = (v.step call).2

namespace Handles

variable {h : Handles} {s c d : ℕ} {slot : AppSlot} {p : DescPtr}

theorem refines_handleSpec :
    Refinement.Refines Handles.step handleSpec fun h v => h.Consistent ∧ h.view = v := by
  rintro h v call ⟨hc, rfl⟩ ⟨hlegal, hharmless⟩
  obtain ⟨h', hstep, hc', hview⟩ := hc.step hlegal hharmless
  exact ⟨h', _, hstep, rfl, hc', hview⟩

/-- Whatever legal and harmless calls an application makes, in whatever order, no freed memory is
used, every call returns what it should, and the lists of the driver are right. The handles passed
exist, nothing is freed that has children, no descriptor is refused for a statement that uses one of
the application, and a copy that is not refused is to itself or between unused descriptors of the
application. -/
theorem run_handles {calls : List HandleCall} (hallowed : handleSpec.Allowed empty.view calls) :
    ∃ h replies, Refinement.run Handles.step empty calls = some (h, replies) ∧
      handleSpec.Right empty.view calls replies ∧ h.Consistent ∧
      h.view = handleSpec.after empty.view calls := by
  obtain ⟨h, replies, hrun, hright, hc, hview⟩ :=
    refines_handleSpec.run ⟨consistent_empty, rfl⟩ hallowed
  exact ⟨h, replies, hrun, hright, hc, hview⟩

/-- A statement of a connection uses a descriptor of the application for its rows. -/
def useCalls : List HandleCall :=
  [.allocEnv, .allocConnect 0, .allocStmt 1, .allocDesc 1, .setAppDesc 2 .row (some (.user 3))]

theorem useCalls_spec : handleSpec.Allowed empty.view useCalls ∧
    ∃ st, (handleSpec.after empty.view useCalls).stmts 2 = some st ∧
      st.app .row = .user 3 := by
  have hver : SQL_OV_ODBC3_80 ≠ 0 := by decide
  have hempty : empty.view = ⟨0, fun _ => none, fun _ => none, fun _ => none, fun _ => none⟩ := rfl
  simp [useCalls, handleSpec, Refinement.Spec.Allowed, Refinement.Spec.after, HandleView.Legal,
    HandleView.Harmless, HandleView.step, hempty, hver, HandleView.Live, HandleView.Accepted,
    HandleView.refusal, HandleView.setApp, HandleView.stmts_setType]
  rintro st d rfl -
  rfl

/-- The calls are made, in their order. -/
theorem run_handles_useCalls : ∃ h replies,
    Refinement.run Handles.step empty useCalls = some (h, replies) ∧
      handleSpec.Right empty.view useCalls replies ∧ h.Consistent ∧
      h.view = handleSpec.after empty.view useCalls :=
  run_handles useCalls_spec.1

/-- Statements that are not in the list of a descriptor stay as they are when it is deleted. -/
theorem detachAll_of_notMem {slot : Option AppSlot} {list : List ℕ} {h' : Handles}
    (hrun : detachAll slot list h = some h') (hs : s ∉ list) :
    h'.stmts s = h.stmts s ∧ h'.descs = h.descs := by
  induction list generalizing h with
  | nil =>
    cases hrun
    exact ⟨rfl, rfl⟩
  | cons s' rest ih =>
    obtain ⟨st, hst, hrest⟩ := Option.bind_eq_some_iff.mp hrun
    obtain ⟨hstmts, hdescs⟩ := ih hrest fun hmem => hs (List.mem_cons_of_mem _ hmem)
    have hne : s ≠ s' := fun heq => hs (heq ▸ List.mem_cons_self)
    exact ⟨hstmts.trans (Store.put_of_ne hne), hdescs⟩

/-- Deleting a statement that uses a descriptor that is gone uses freed memory. -/
theorem mySQLFreeStmtDrop_of_dangling {st : StmtHandle} (hs : h.stmts s = some st)
    (hslot : st.app slot = .user d) (hd : h.descs d = none) : h.mySQLFreeStmtDrop s = none := by
  have hremove : ∀ (h : Handles) (p : DescPtr), h.descs d = none → p = .user d →
      h.stmtListRemove p s = none := by
    rintro h p hd rfl
    rw [stmtListRemove, descAt, hd, Option.map_none]
  have hkeep : ∀ (p : DescPtr) (h' : Handles), h.stmtListRemove p s = some h' →
      h'.descs d = none := by
    intro p h' hrun
    obtain ⟨desc, hdesc, rfl⟩ := Option.map_eq_some_iff.mp hrun
    split_ifs
    · cases p with
      | own s' kind =>
        rw [setDesc]
        split <;> exact hd
      | user d' =>
        have hne : d ≠ d' := by
          rintro rfl
          exact Option.some_ne_none _ (hdesc.symm.trans hd)
        exact (Store.put_of_ne hne).trans hd
    · exact hd
  rw [Handles.mySQLFreeStmtDrop, hs, Option.bind_eq_bind, Option.bind_some]
  cases slot with
  | param => rw [hremove h _ hd hslot]; rfl
  | row =>
    cases hrun : h.stmtListRemove (st.app .param) s with
    | none => rfl
    | some h' =>
      rw [Option.bind_eq_bind, Option.bind_some, hremove h' _ (hkeep _ h' hrun) hslot]
      rfl

/-- A statement uses a descriptor, and the attribute is set again; then the descriptor and the
statement are deleted. Freed memory is used exactly when the attribute was refused. -/
theorem Consistent.run_refused_iff (hc : h.Consistent) {st : StmtHandle}
    (hs : h.stmts s = some st) (hslot : st.app slot = .user d) (hlive : h.view.Live p) :
    Refinement.run Handles.step h
        [.setAppDesc s slot (some p), .freeDesc (.user d), .dropStmt s] = none ↔
      h.view.refusal s st.dbc slot p ≠ none := by
  have hstmt : h.view.stmts s = some ⟨st.dbc, st.app⟩ := view_stmts_eq_some.mpr ⟨st, hs, rfl⟩
  have hstmts : h.view.stmts s ≠ none := by
    rw [hstmt]
    exact Option.some_ne_none _
  have hd : h.view.Live (.user d) := hslot ▸ hc.live_app hs slot
  cases hrefusal : h.view.refusal s st.dbc slot p with
  | none =>
    refine iff_of_false (fun hnone => ?_) fun hsome => hsome rfl
    have hstep : (h.view.step (.setAppDesc s slot (some p))).1 =
        (h.view.setType p slot.descType).setApp s slot p := by
      rw [HandleView.step, hstmt, Option.bind_some, hrefusal]
    have haccepted : h.view.Accepted s slot p := by
      intro st' d' hs' _
      obtain rfl := Option.some.inj (hstmt.symm.trans hs')
      exact hrefusal
    have hlived : (h.view.step (.setAppDesc s slot (some p))).1.Live (.user d) := by
      rw [hstep, HandleView.live_setApp, HandleView.live_setType]
      exact hd
    have hlives : (h.view.step (.setAppDesc s slot (some p))).1.Live (.own s .ard) := by
      rw [hstep, HandleView.live_setApp, HandleView.live_setType]
      exact hstmts
    have hlegal : h.view.Legal (.setAppDesc s slot (some p)) :=
      ⟨hstmts, fun p' heq => Option.some.inj heq ▸ hlive⟩
    have hallowed : handleSpec.Allowed h.view
        [.setAppDesc s slot (some p), .freeDesc (.user d), .dropStmt s] :=
      ⟨⟨hlegal, haccepted⟩, ⟨hlived, trivial⟩,
        ⟨fun hgone => hlives (HandleView.stmts_detach_eq_none.mp hgone), trivial⟩, trivial⟩
    obtain ⟨h', replies, hrun, -⟩ := refines_handleSpec.run ⟨hc, rfl⟩ hallowed
    rw [hnone] at hrun
    cases hrun
  | some e =>
    refine iff_of_true ?_ (Option.some_ne_none e)
    -- the statement is in no list, but it still uses the descriptor
    have hfirst : h.step (.setAppDesc s slot (some p)) =
        some (h.unlist (st.app slot) s, .error e) :=
      hc.setStmtAttrDesc_refused hs hlive hrefusal
    obtain ⟨desc, hdesc⟩ := view_ne_none.mp hd
    have hlist : (h.unlist (st.app slot) s).descAt (.user d) =
        some { desc with stmtList := desc.stmtList.filter (· ≠ s) } := by
      change (h.unlist (st.app slot) s).descs d = _
      rw [descs_unlist_apply, if_pos hslot, hdesc, Option.map_some]
    have huser := (hc.user d desc hdesc).1
    rw [Refinement.run_cons hfirst, Option.map_eq_none_iff]
    cases hsecond : (h.unlist (st.app slot) s).step (.freeDesc (.user d)) with
    | none => simp only [Refinement.run, hsecond]
    | some result =>
      obtain ⟨h₂, reply⟩ := result
      rw [Refinement.run_cons hsecond, Option.map_eq_none_iff]
      rw [Handles.step, Handles.mySQLFreeDesc, hlist, Option.bind_eq_bind, Option.bind_some]
        at hsecond
      obtain ⟨dbc, -, hfreed⟩ := Option.bind_eq_some_iff.mp hsecond
      rw [if_neg (not_not.mpr huser)] at hfreed
      obtain ⟨h₁, hdetached, heq⟩ := Option.bind_eq_some_iff.mp hfreed
      cases heq
      have hnot : s ∉ desc.stmtList.filter (· ≠ s) := by simp
      have hkept := (detachAll_of_notMem hdetached hnot).1
      have hkeeps : (h.unlist (st.app slot) s).stmts s = some st := by
        rw [unlist_stmts]
        exact hs
      have hthird : Handles.mySQLFreeStmtDrop { h₁ with descs := h₁.descs.drop d } s = none :=
        mySQLFreeStmtDrop_of_dangling (hkept.trans hkeeps) hslot Store.drop_self
      simp only [Refinement.run, Handles.step, hthird, Option.map_none]

/-- The descriptor for the parameters of the same statement is refused for its rows. -/
theorem run_refused_iff_useCalls : ∃ (h : Handles) (st : StmtHandle), h.Consistent ∧
    h.stmts 2 = some st ∧ (Refinement.run Handles.step h
      [.setAppDesc 2 .row (some (.own 2 .apd)), .freeDesc (.user 3), .dropStmt 2] = none ↔
        h.view.refusal 2 st.dbc .row (.own 2 .apd) ≠ none) := by
  obtain ⟨hallowed, st', hst', hslot⟩ := useCalls_spec
  obtain ⟨h, replies, -, -, hc, hview⟩ := refines_handleSpec.run ⟨consistent_empty, rfl⟩ hallowed
  rw [← hview] at hst'
  obtain ⟨st, hst, rfl⟩ := view_stmts_eq_some.mp hst'
  have hlive : h.view.Live (.own 2 .apd) := view_ne_none.mpr ⟨st, hst⟩
  exact ⟨h, st, hc, hst, hc.run_refused_iff hst hslot hlive⟩

/-- A descriptor of a statement is known by its types. -/
theorem ownDesc_injective {s s' c c' : ℕ} {kind kind' : DescKind}
    (heq : ownDesc s c kind = ownDesc s' c' kind') : s = s' ∧ kind = kind' := by
  have hstmt : some s = some s' := congrArg DescHandle.stmt heq
  have href : kind.refType = kind'.refType := congrArg DescHandle.refType heq
  have htype : kind.descType = kind'.descType := congrArg DescHandle.descType heq
  refine ⟨Option.some.inj hstmt, ?_⟩
  revert href htype
  cases kind <;> cases kind' <;> simp [DescKind.refType, DescKind.descType]

/-- What is copied to a statement's own descriptor must be that descriptor. -/
theorem Shaped.src_of_copy_own {kind : DescKind} {src : DescPtr} {source : DescHandle}
    (hc : h.Shaped) (hlive : h.view.stmts s ≠ none) (hsource : h.descAt src = some source)
    (hc' : (h.setDesc (.own s kind) source).Shaped) : src = .own s kind := by
  obtain ⟨st, hs⟩ := view_ne_none.mp hlive
  rw [setDesc, hs] at hc'
  have hdesc := hc'.own s _ Store.put_self
  have hown : source = ownDesc s st.dbc kind :=
    (Function.update_self ..).symm.trans (congrFun hdesc kind)
  cases src with
  | own s' kind' =>
    obtain ⟨st', hs', rfl⟩ := Option.map_eq_some_iff.mp hsource
    rw [hc.own s' st' hs'] at hown
    obtain ⟨rfl, rfl⟩ := ownDesc_injective hown
    rfl
  | user d =>
    have huser := (hc.user d source hsource).1
    rw [hown] at huser
    cases huser

/-- What is copied to a descriptor of the application must be one, of the same connection, and no
statement may use either. -/
theorem Consistent.src_of_copy_user {src : DescPtr} {source : DescHandle} (hc : h.Consistent)
    (hlive : h.view.descs d ≠ none) (hsource : h.descAt src = some source)
    (hc' : (h.setDesc (.user d) source).Consistent) : h.view.CopyHarmless src (.user d) := by
  have hput : (h.setDesc (.user d) source).descs d = some source := Store.put_self
  cases src with
  | own s kind =>
    obtain ⟨st, hs, rfl⟩ := Option.map_eq_some_iff.mp hsource
    have huser := (hc'.user d _ hput).1
    rw [hc.own s st hs] at huser
    cases huser
  | user d₀ =>
    have hsource : h.descs d₀ = some source := hsource
    by_cases heq : d₀ = d
    · exact Or.inl (congrArg DescPtr.user heq)
    obtain ⟨target, htarget⟩ := view_ne_none.mp hlive
    obtain ⟨dbc, hdbc⟩ := view_ne_none.mp
      (hc.ok.descs d _ (Option.map_eq_some_iff.mpr ⟨target, htarget, rfl⟩))
    have hlisted : d ∈ dbc.descList :=
      ((hc.descs target.dbc dbc hdbc).mem_iff d).mpr (descOf_iff.mpr ⟨target, htarget, rfl⟩)
    have hof : source.dbc = target.dbc := by
      obtain ⟨desc, hd, hof⟩ :=
        descOf_iff.mp (((hc'.descs target.dbc dbc hdbc).mem_iff d).mp hlisted)
      obtain rfl := Option.some.inj (hput.symm.trans hd)
      exact hof
    -- the list that is copied is that of both descriptors
    have hsame := (hc.uses d₀ source hsource).of_eq (hc'.uses d source hput) rfl
    have hunused : ∀ s, ¬ h.view.Uses d₀ s := by
      intro s huses
      obtain ⟨st, slot, hs, hslot⟩ := uses_iff.mp huses
      obtain ⟨st', slot', hs', hslot'⟩ := uses_iff.mp ((hsame s).mp huses)
      obtain rfl := Option.some.inj (hs.symm.trans hs')
      obtain rfl := descType_injective ((hc.slot_of_uses hs hsource hslot).1.symm.trans
        (hc'.slot_of_uses hs hput hslot').1)
      exact heq (DescPtr.user.inj (hslot.symm.trans hslot'))
    exact Or.inr ⟨d₀, d, source.dbc, rfl, rfl, descOf_iff.mpr ⟨source, hsource, rfl⟩,
      descOf_iff.mpr ⟨target, htarget, hof.symm⟩, hunused,
      fun s huses => hunused s ((hsame s).mpr huses)⟩

/-- `SQLCopyDesc` leaves the lists right exactly when it is refused, or copies a descriptor to
itself, or copies between descriptors of the application, of one connection, that no statement
uses. -/
theorem Consistent.copyDesc_consistent_iff (hc : h.Consistent) {src dest : DescPtr}
    (hsrc : h.view.Live src) (hdest : h.view.Live dest) (prepared : Bool) :
    (∃ h' reply, h.mySQLCopyDesc src dest prepared = some (h', reply) ∧ h'.Consistent) ↔
      (HandleView.copyError src dest prepared = none → h.view.CopyHarmless src dest) := by
  constructor
  · rintro ⟨h', reply, hrun, hc'⟩ herror
    obtain ⟨source, hsource⟩ := exists_descAt hsrc
    rw [hc.toShaped.mySQLCopyDesc hsource hdest, herror] at hrun
    cases hrun
    cases dest with
    | own s kind => exact Or.inl (hc.src_of_copy_own hdest hsource hc'.toShaped)
    | user d => exact hc.src_of_copy_user hdest hsource hc'
  · intro hharmless
    obtain ⟨h', hrun, hc', -⟩ := hc.mySQLCopyDesc prepared ⟨hsrc, hdest⟩ hharmless
    exact ⟨h', _, hrun, hc'⟩

/-- The descriptor for the rows cannot be copied to the one for the parameters. -/
theorem copyDesc_consistent_iff_useCalls : ∃ h : Handles, h.Consistent ∧
    ((∃ h' reply, h.mySQLCopyDesc (.user 3) (.own 2 .apd) false = some (h', reply) ∧
      h'.Consistent) ↔ (HandleView.copyError (.user 3) (.own 2 .apd) false = none →
        h.view.CopyHarmless (.user 3) (.own 2 .apd))) := by
  obtain ⟨hallowed, st', hst', hslot⟩ := useCalls_spec
  obtain ⟨h, replies, -, -, hc, hview⟩ := refines_handleSpec.run ⟨consistent_empty, rfl⟩ hallowed
  rw [← hview] at hst'
  obtain ⟨st, hst, rfl⟩ := view_stmts_eq_some.mp hst'
  have hsrc : h.view.Live (.user 3) := hslot ▸ hc.live_app hst .row
  have hdest : h.view.Live (.own 2 .apd) := view_ne_none.mpr ⟨st, hst⟩
  exact ⟨h, hc, hc.copyDesc_consistent_iff hsrc hdest false⟩

end Handles

end MatrixOdbc.Driver
