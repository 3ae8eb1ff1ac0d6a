import MatrixOdbc.Driver.BatchResults
import MatrixOdbc.Foundations.Refinement
import MatrixOdbc.Foundations.SharedQueue

/-!
# Statements that share a connection

An application takes each statement handle to have the results of its own batch. The driver keeps
to this as long as no call takes what is left for another handle, and no longer.
-/

namespace MatrixOdbc.Driver

variable {Q C ρ : Type}

open SharedQueue

/-- A statement with the answers that are left for it. -/
structure BatchView (Q ρ : Type) where
  stmt : BatchStmt Q ρ
  rest : List (BatchReply ρ)

/-- The statements of an application, each with answers of its own; whether there are answers that
no statement will ask for; and the count of what was taken last. -/
structure BatchSession (Q ρ : Type) where
  stmts : Store ℕ (BatchView Q ρ)
  stray : Bool
  counted : BitVec 64

namespace BatchView

variable (answers : Q → List (BatchReply ρ)) (texts : ErrorTexts) (v : BatchView Q ρ)

/-- A statement takes an answer. -/
def took (st : BatchStmt Q ρ) (error : ℕ → List Char → BatchOut ρ) (none : BatchOut ρ) :
    List (BatchReply ρ) → BatchView Q ρ × BatchOut ρ
  | [] => (⟨st, []⟩, none)
  | a :: rest => (⟨st.answered a, a.rest rest⟩, a.out error)

/-- What a call does. -/
def call : BatchCall Q ρ → BatchView Q ρ × BatchOut ρ
  | .allocStmt => (v, .success)
  | .prepare q => (⟨{ v.stmt with query := some q, state := .prepared }, []⟩, .success)
  | .execute =>
    match v.stmt.query with
    | none => (v, .error (texts.driverError .MYERR_S1010).1 (texts.driverError .MYERR_S1010).2)
    | some q => took v.stmt.unbound texts.queryError .success (answers q)
  | .moreResults =>
    if v.stmt.state = .executed then took { v.stmt with result := none } moreError .noData v.rest
    else (v, .noData)
  | .rowCount =>
    (v, .rowCount (match v.stmt.result with
      | some data => BitVec.ofNat 64 data.length
      | none => v.stmt.affectedRows))
  | .close => (⟨{ v.stmt.unbound with state := .unknown }, []⟩, .success)
  | .closeCursor =>
    (⟨{ v.stmt.unbound with state := .unknown }, []⟩,
      if v.stmt.result.isNone then .error "24000".toList 0 else .success)
  | .drop => (⟨{ v.stmt.unbound with state := .unknown, query := none }, []⟩, .success)
  | .getTypeInfo data =>
    (⟨⟨.executed, none, some data, true, 0⟩, []⟩, .result data)

end BatchView

namespace BatchSession

variable (answers : Q → List (BatchReply ρ)) (texts : ErrorTexts) (s : BatchSession Q ρ)

/-- The answers that are left for a statement. -/
def rest (id : ℕ) : List (BatchReply ρ) := (s.stmts id).elim [] BatchView.rest

/-- Nothing is left for the other statements. -/
def Others (id : ℕ) : Prop := ∀ id' ≠ id, s.rest id' = []

/-- Whether answers are stray behind a call. -/
def strayBehind (v : BatchView Q ρ) : BatchCall Q ρ → Bool
  | .prepare _ => s.stray || !v.rest.isEmpty
  | .execute => v.stmt.query.isNone && s.stray
  | .close | .closeCursor | .drop | .getTypeInfo _ => v.stmt.fakeResult && s.stray
  | _ => s.stray

/-- The count behind a call. -/
def countBehind (v : BatchView Q ρ) : BatchCall Q ρ → BitVec 64
  | .execute =>
    match v.stmt.query with
    | none => s.counted
    | some q => ((answers q).head?.map BatchReply.count).getD noCount
  | .moreResults =>
    if v.stmt.state = .executed then (v.rest.head?.map BatchReply.count).getD noCount
    else s.counted
  | .close | .closeCursor | .drop | .getTypeInfo _ =>
    if v.stmt.fakeResult then s.counted else noCount
  | _ => s.counted

/-- The session behind a call on a statement. -/
def behind (id : ℕ) (v : BatchView Q ρ) (call : BatchCall Q ρ) : BatchSession Q ρ :=
  ⟨call.store s.stmts id (v.call answers texts call).1, s.strayBehind v call,
    s.countBehind answers v call⟩

/-- When a call on a statement takes nothing that is left for another. A call that frees a result
of the server takes all that is left, and the count of rows is that of what was taken last. -/
def Harmless (id : ℕ) (v : BatchView Q ρ) : BatchCall Q ρ → Prop
  | .execute => v.stmt.query ≠ none → s.Others id ∧ (v.stmt.fakeResult = true → s.stray = false)
  | .moreResults => v.stmt.state = .executed → s.Others id ∧ s.stray = false
  | .close | .closeCursor | .drop | .getTypeInfo _ => v.stmt.fakeResult = false → s.Others id
  | .rowCount => ∀ data, v.stmt.result = some data → v.stmt.fakeResult = false →
      s.counted = BitVec.ofNat 64 data.length
  | .allocStmt | .prepare _ => True

/-- The calls of an application that uses the handles it has. -/
def spec : Refinement.Spec (BatchSession Q ρ) (ℕ × BatchCall Q ρ) (BatchOut ρ) where
  next s input :=
    match s.stmts input.1, input.2 with
    | none, .allocStmt => { s with stmts := s.stmts.put input.1 ⟨.new, []⟩ }
    | none, _ => s
    | some v, call => s.behind answers texts input.1 v call
  allowed s input :=
    match s.stmts input.1, input.2 with
    | none, .allocStmt => True
    | some _, .allocStmt | none, _ => False
    | some v, call => s.Harmless input.1 v call
  right s input out :=
    match s.stmts input.1, input.2 with
    | some v, call => out = (v.call answers texts call).2
    | none, _ => out = .success

end BatchSession

/-- The driver has what an application may rely on: its statements, and at the connection what they
have still to ask for. -/
structure BatchAgrees (lib : ClientLib Q C ρ) (d : BatchDbc Q C ρ) (s : BatchSession Q ρ) :
    Prop where
  stmts : d.stmts = s.stmts.map BatchView.stmt
  fake : ∀ id v, s.stmts id = some v → v.stmt.fakeResult = true → v.rest = []
  left : ∃ pending, Settled lib d.mysql pending s.counted ∧ Queued s.rest s.stray pending

/-- A call on a statement returns what it should, and the driver agrees behind it. -/
def Tracked (lib : ClientLib Q C ρ) (texts : ErrorTexts) (d : BatchDbc Q C ρ)
    (s : BatchSession Q ρ) (id : ℕ) (v : BatchView Q ρ) (call : BatchCall Q ρ) : Prop :=
  (v.stmt.call lib texts d.mysql call).2.2 = (v.call lib.answers texts call).2 ∧
    BatchAgrees lib ⟨(v.stmt.call lib texts d.mysql call).1,
      call.store d.stmts id (v.stmt.call lib texts d.mysql call).2.1⟩
      (s.behind lib.answers texts id v call)

section Sessions

variable {lib : ClientLib Q C ρ} {texts : ErrorTexts} {d : BatchDbc Q C ρ} {s : BatchSession Q ρ}
variable {id : ℕ} {v : BatchView Q ρ} {c : C} {st : BatchStmt Q ρ} {call : BatchCall Q ρ}
variable {pending answers : List (BatchReply ρ)} {count : BitVec 64}

theorem BatchSession.rest_of_some (hv : s.stmts id = some v) : s.rest id = v.rest := by
  rw [BatchSession.rest, hv]
  rfl

theorem BatchCall.map_store {α β : Type} {f : α → β} {stmts : Store ℕ α} {a : α} :
    (call.store stmts id a).map f = call.store (stmts.map f) id (f a) := by
  cases call with
  | drop => exact Store.map_drop
  | _ => exact Store.map_put

/-- A statement that took an answer has only a result of the server. -/
theorem BatchStmt.fakeResult_answered {a : BatchReply ρ} (h : st.fakeResult = false) :
    (st.answered a).fakeResult = false := by
  cases a with
  | failed errno text => exact h
  | _ => rfl

theorem BatchView.fakeResult_took {error : ℕ → List Char → BatchOut ρ} {out : BatchOut ρ}
    (h : st.fakeResult = true → answers = [])
    (hfake : (took st error out answers).1.stmt.fakeResult = true) :
    (took st error out answers).1.rest = [] := by
  cases answers with
  | nil => rfl
  | cons a answers =>
    have hst : st.fakeResult = false := Bool.not_eq_true _ ▸ fun hst => by cases h hst
    have hnot := BatchStmt.fakeResult_answered (a := a) hst
    exact absurd hfake (hnot ▸ Bool.false_ne_true)

/-- A statement with a result of the driver has no answers left. -/
theorem BatchView.fake_call (hv : v.stmt.fakeResult = true → v.rest = [])
    (hfake : (v.call lib.answers texts call).1.stmt.fakeResult = true) :
    (v.call lib.answers texts call).1.rest = [] := by
  cases call with
  | allocStmt | rowCount => exact hv hfake
  | prepare | close | closeCursor | drop | getTypeInfo => rfl
  | execute =>
    rw [BatchView.call] at hfake ⊢
    cases hq : v.stmt.query with
    | none =>
      rw [hq] at hfake
      exact hv hfake
    | some q =>
      rw [hq] at hfake
      exact fakeResult_took (fun h => by cases h) hfake
  | moreResults =>
    rw [BatchView.call] at hfake ⊢
    split_ifs at hfake ⊢ with hstate
    · exact fakeResult_took hv hfake
    · exact hv hfake

/-- What is left for the statements behind a call. -/
theorem BatchSession.rest_behind :
    (s.behind lib.answers texts id v call).rest =
      Function.update s.rest id (v.call lib.answers texts call).1.rest := by
  funext id'
  rw [Function.update_apply, BatchSession.rest, BatchSession.behind]
  cases call with
  | drop =>
    change (Option.elim (s.stmts.drop id id') [] _) = _
    rw [Store.drop_apply]
    split_ifs <;> rfl
  | _ =>
    change (Option.elim (s.stmts.put id _ id') [] _) = _
    rw [Store.put_apply]
    split_ifs <;> rfl

/-- The driver agrees behind a call that leaves a statement as it should be exactly when the rest is
what the statements have to ask for. -/
theorem BatchAgrees.behind_iff (h : BatchAgrees lib d s) (hv : s.stmts id = some v)
    (hst : st = (v.call lib.answers texts call).1.stmt)
    (hsettled : Settled lib c pending (s.countBehind lib.answers v call)) :
    BatchAgrees lib ⟨c, call.store d.stmts id st⟩ (s.behind lib.answers texts id v call) ↔
      Queued (Function.update s.rest id (v.call lib.answers texts call).1.rest)
        (s.strayBehind v call) pending := by
  rw [← BatchSession.rest_behind]
  constructor
  · rintro ⟨-, -, pending', hsettled', hqueued⟩
    rwa [← hsettled.pending, hsettled'.pending]
  · refine fun hqueued => ⟨?_, ?_, pending, hsettled, hqueued⟩
    · change call.store d.stmts id st = (call.store s.stmts id _).map _
      rw [BatchCall.map_store, h.stmts, hst]
    · intro id' v' hv' hfake
      have hcases : v' = (v.call lib.answers texts call).1 ∨ s.stmts id' = some v' := by
        change call.store s.stmts id _ id' = some v' at hv'
        cases call with
        | drop =>
          change s.stmts.drop id id' = some v' at hv'
          rw [Store.drop_apply] at hv'
          split_ifs at hv'
          exact Or.inr hv'
        | _ =>
          change s.stmts.put id _ id' = some v' at hv'
          rw [Store.put_apply] at hv'
          split_ifs at hv'
          · exact Or.inl (Option.some.inj hv').symm
          · exact Or.inr hv'
      rcases hcases with rfl | hold
      · exact BatchView.fake_call (h.fake id v hv) hfake
      · exact h.fake id' v' hold hfake

theorem BatchSession.others_update {left : List (BatchReply ρ)} :
    (∀ id' ≠ id, Function.update s.rest id left id' = []) ↔ s.Others id :=
  forall₂_congr fun id' hne => by rw [Function.update_of_ne hne]

/-- The other statements have what they had behind a call. -/
theorem BatchSession.alone_behind (hothers : s.Others id) :
    (s.behind lib.answers texts id v call).Others id := by
  intro id' hne
  rw [BatchSession.rest_behind, Function.update_of_ne hne]
  exact hothers id' hne

/-- What the statement of a call has still to ask for stays when the call leaves it as it is. -/
theorem BatchSession.update_rest (hv : s.stmts id = some v) :
    Function.update s.rest id v.rest = s.rest :=
  Function.update_eq_self_iff.mpr (BatchSession.rest_of_some hv).symm

/-- A call that frees the results of a statement. -/
theorem BatchAgrees.freed_iff (h : BatchAgrees lib d s) (hv : s.stmts id = some v)
    (option : FreeOption) (call : BatchCall Q ρ)
    (hst : st = (v.call lib.answers texts call).1.stmt)
    (hrest : (v.call lib.answers texts call).1.rest = [])
    (hstray : s.strayBehind v call = (v.stmt.fakeResult && s.stray))
    (hcount : s.countBehind lib.answers v call =
      if v.stmt.fakeResult then s.counted else noCount) :
    BatchAgrees lib
        ⟨(mySQLFreeStmtExtended lib option true d.mysql v.stmt).1, call.store d.stmts id st⟩
        (s.behind lib.answers texts id v call) ↔
      (v.stmt.fakeResult = false → s.Others id) := by
  obtain ⟨pending, hsettled, hqueued⟩ := h.left
  have hfree := settled_free hsettled v.stmt option
  rw [← hcount] at hfree
  rw [h.behind_iff hv hst hfree, hrest, hstray]
  cases hfake : v.stmt.fakeResult with
  | false =>
    rw [Bool.false_and, if_neg Bool.false_ne_true, queued_iff_of_own (Function.update_self ..),
      BatchSession.others_update]
    exact ⟨fun hothers _ => hothers, fun hothers => hothers rfl⟩
  | true =>
    rw [Bool.true_and, if_pos rfl, ← h.fake id v hv hfake, BatchSession.update_rest hv]
    exact iff_of_true hqueued fun h => by cases h

/-- A call that leaves the statement and the connection as they are. -/
theorem BatchAgrees.kept (h : BatchAgrees lib d s) (hv : s.stmts id = some v)
    (hview : (v.call lib.answers texts call).1 = v) (hstray : s.strayBehind v call = s.stray)
    (hcount : s.countBehind lib.answers v call = s.counted) :
    BatchAgrees lib ⟨d.mysql, call.store d.stmts id v.stmt⟩
      (s.behind lib.answers texts id v call) := by
  obtain ⟨pending, hsettled, hqueued⟩ := h.left
  rw [h.behind_iff hv (by rw [hview]) (hcount ▸ hsettled), hview, hstray,
    BatchSession.update_rest hv]
  exact hqueued

/-- `SQLExecute` of a query. -/
theorem BatchAgrees.execute_iff (h : BatchAgrees lib d s) (hv : s.stmts id = some v) {q : Q}
    (hq : v.stmt.query = some q) :
    Tracked lib texts d s id v .execute ↔ s.Harmless id v .execute := by
  obtain ⟨pending, hsettled, hqueued⟩ := h.left
  have hharmless : s.Harmless id v .execute ↔
      s.Others id ∧ (v.stmt.fakeResult = true → s.stray = false) := by
    rw [BatchSession.Harmless, hq]
    exact ⟨fun h => h (Option.some_ne_none q), fun h _ => h⟩
  obtain ⟨a, answers, hanswers⟩ := List.exists_cons_of_ne_nil (lib.answers_ne_nil q)
  have hcall : v.call lib.answers texts .execute =
      (⟨v.stmt.unbound.answered a, a.rest answers⟩, a.out texts.queryError) := by
    rw [BatchView.call, hq]
    simp only [hanswers, BatchView.took]
  have hstray : s.strayBehind v .execute = false := by
    rw [BatchSession.strayBehind, hq]
    rfl
  have hcount : s.countBehind lib.answers v .execute = a.count := by
    rw [BatchSession.countBehind, hq]
    simp only [hanswers, List.head?_cons, Option.map_some, Option.getD_some]
  rw [hharmless]
  by_cases hbusy : v.stmt.fakeResult = true ∧ pending ≠ []
  · -- answers are left, and the client library takes no query
    obtain ⟨sqlstate, hout⟩ := batchExecute_busy texts hsettled hq hbusy.1 hbusy.2
    refine iff_of_false (fun hright => ?_) fun hharmless => ?_
    · rw [Tracked, show (v.stmt.call lib texts d.mysql .execute).2.2 = _ from hout, hcall] at hright
      cases a with
      | failed errno text =>
        have hmem : BatchReply.failed errno text ∈ lib.answers q := hanswers ▸ List.mem_cons_self
        have heq := hright.1
        rw [BatchReply.out, ErrorTexts.queryError, BatchOut.error.injEq] at heq
        exact lib.errno_ne q errno text hmem heq.2.symm
      | rows data => cases hright.1
      | changed n => cases hright.1
    · have hown := hqueued.own_iff.mpr ⟨hharmless.1, hharmless.2 hbusy.1⟩
      rw [BatchSession.rest_of_some hv, h.fake id v hv hbusy.1] at hown
      exact hbusy.2 hown.symm
  · have hpending : v.stmt.fakeResult = true → pending = [] := fun hfake =>
      not_not.mp fun hne => hbusy ⟨hfake, hne⟩
    obtain ⟨c', hrun, hsettled'⟩ := batchExecute_spec texts hsettled hq hanswers hpending
    rw [← hcount] at hsettled'
    rw [Tracked, show v.stmt.call lib texts d.mysql .execute = _ from hrun,
      h.behind_iff hv (by rw [hcall]) hsettled', hcall, hstray,
      queued_iff_of_own (Function.update_self ..), BatchSession.others_update]
    refine ⟨fun hright => ⟨hright.2, fun hfake => ?_⟩, fun hharmless => ⟨rfl, hharmless.1⟩⟩
    have hown : s.rest id = pending := by
      rw [BatchSession.rest_of_some hv, h.fake id v hv hfake, hpending hfake]
    exact (hqueued.own_iff.mp hown).2

/-- `SQLMoreResults` of a statement that was executed. -/
theorem BatchAgrees.moreResults_iff (h : BatchAgrees lib d s) (hv : s.stmts id = some v)
    (hstate : v.stmt.state = .executed) :
    Tracked lib texts d s id v .moreResults ↔ s.Harmless id v .moreResults := by
  obtain ⟨pending, hsettled, hqueued⟩ := h.left
  have hrest := BatchSession.rest_of_some hv
  have hharmless : s.Harmless id v .moreResults ↔ v.rest = pending := by
    rw [← hrest, hqueued.own_iff, BatchSession.Harmless]
    exact ⟨fun h => h hstate, fun h _ => h⟩
  have hcall : v.call lib.answers texts .moreResults =
      BatchView.took { v.stmt with result := none } moreError .noData v.rest := if_pos hstate
  have hcount : s.countBehind lib.answers v .moreResults =
      (v.rest.head?.map BatchReply.count).getD noCount := if_pos hstate
  rw [hharmless]
  by_cases hown : v.rest = pending
  · refine iff_of_true ?_ hown
    obtain ⟨hothers, hstray⟩ := hqueued.own_iff.mp (hrest.trans hown)
    subst hown
    have hrun : ∃ c', sqlMoreResults lib d.mysql v.stmt =
          (c', (v.call lib.answers texts .moreResults).1.stmt,
            (v.call lib.answers texts .moreResults).2) ∧
        Settled lib c' (v.call lib.answers texts .moreResults).1.rest
          (s.countBehind lib.answers v .moreResults) := by
      rw [hcall, hcount]
      cases hanswers : v.rest with
      | nil => exact sqlMoreResults_nil (hanswers ▸ hsettled) hstate
      | cons a answers => exact sqlMoreResults_cons (hanswers ▸ hsettled) hstate
    obtain ⟨c', hrun, hsettled'⟩ := hrun
    rw [Tracked, show v.stmt.call lib texts d.mysql .moreResults = _ from hrun,
      h.behind_iff hv rfl hsettled', show s.strayBehind v .moreResults = false from hstray,
      queued_iff_of_own (Function.update_self ..), BatchSession.others_update]
    exact ⟨rfl, hothers⟩
  · refine iff_of_false (fun hright => ?_) hown
    obtain ⟨hnil, hne⟩ := hqueued.eq_nil_of_ne (hrest ▸ hown)
    obtain ⟨a, answers, rfl⟩ := List.exists_cons_of_ne_nil hne
    obtain ⟨c', hrun, -⟩ := sqlMoreResults_cons hsettled hstate
    have hout := hright.1
    rw [show v.stmt.call lib texts d.mysql .moreResults = _ from hrun, hcall, ← hrest, hnil] at hout
    cases a with
    | rows data => cases hout
    | changed n => cases hout
    | failed errno text => cases hout

/-- A call on a statement is tracked exactly when it is harmless. -/
theorem BatchAgrees.tracked_iff (h : BatchAgrees lib d s) (hv : s.stmts id = some v) :
    Tracked lib texts d s id v call ↔ s.Harmless id v call := by
  cases call with
  | allocStmt => exact iff_of_true ⟨rfl, h.kept hv rfl rfl rfl⟩ trivial
  | prepare q =>
    obtain ⟨pending, hsettled, hqueued⟩ := h.left
    refine iff_of_true ⟨rfl, (h.behind_iff hv rfl hsettled).mpr ?_⟩ trivial
    have hgiven := hqueued.giveUp (k := id)
    rwa [BatchSession.rest_of_some hv] at hgiven
  | execute =>
    cases hq : v.stmt.query with
    | none =>
      have hcall : v.call lib.answers texts .execute = (v, .error
          (texts.driverError .MYERR_S1010).1 (texts.driverError .MYERR_S1010).2) := by
        rw [BatchView.call, hq]
      have hrun : v.stmt.call lib texts d.mysql .execute = (d.mysql, v.stmt, .error
          (texts.driverError .MYERR_S1010).1 (texts.driverError .MYERR_S1010).2) := by
        rw [BatchStmt.call, batchExecute, hq]
      refine iff_of_true ?_ fun hne => absurd hq hne
      rw [Tracked, hrun]
      refine ⟨by rw [hcall], h.kept hv (by rw [hcall]) ?_ ?_⟩
      · rw [BatchSession.strayBehind, hq]
        rfl
      · rw [BatchSession.countBehind, hq]
    | some q => exact h.execute_iff hv hq
  | moreResults =>
    by_cases hstate : v.stmt.state = .executed
    · exact h.moreResults_iff hv hstate
    · have hcall : v.call lib.answers texts .moreResults = (v, .noData) := if_neg hstate
      have hrun : v.stmt.call lib texts d.mysql .moreResults = (d.mysql, v.stmt, .noData) :=
        if_pos hstate
      refine iff_of_true ?_ fun heq => absurd heq hstate
      rw [Tracked, hrun]
      exact ⟨by rw [hcall], h.kept hv (by rw [hcall]) rfl (if_neg hstate)⟩
  | rowCount =>
    obtain ⟨pending, hsettled, -⟩ := h.left
    have hkept : BatchAgrees lib ⟨d.mysql, BatchCall.rowCount.store d.stmts id v.stmt⟩
        (s.behind lib.answers texts id v .rowCount) := h.kept hv rfl rfl rfl
    apply (and_iff_left hkept).trans
    change BatchOut.rowCount (sqlRowCount lib d.mysql v.stmt) = .rowCount _ ↔ _
    rw [BatchOut.rowCount.injEq, sqlRowCount, lib.affectedRows, hsettled.affected,
      BatchSession.Harmless]
    cases hresult : v.stmt.result with
    | none => simp
    | some data => cases hfake : v.stmt.fakeResult <;> simp
  | close => exact (and_iff_right rfl).trans (h.freed_iff hv .close .close rfl rfl rfl rfl)
  | closeCursor =>
    exact (and_iff_right rfl).trans (h.freed_iff hv .close .closeCursor rfl rfl rfl rfl)
  | drop => exact (and_iff_right rfl).trans (h.freed_iff hv .reset .drop rfl rfl rfl rfl)
  | getTypeInfo data =>
    exact (and_iff_right rfl).trans (h.freed_iff hv .reset (.getTypeInfo data) rfl rfl rfl rfl)

/-- A handle is allocated. -/
theorem BatchAgrees.allocStmt (h : BatchAgrees lib d s) (hnone : s.stmts id = none) :
    BatchAgrees lib ⟨d.mysql, d.stmts.put id .new⟩
      { s with stmts := s.stmts.put id ⟨.new, []⟩ } := by
  obtain ⟨pending, hsettled, hqueued⟩ := h.left
  refine ⟨?_, fun id' v' hv' hfake => ?_, pending, hsettled, ?_⟩
  · change d.stmts.put id _ = (s.stmts.put id _).map _
    rw [h.stmts, Store.map_put]
  · change s.stmts.put id _ id' = some v' at hv'
    rw [Store.put_apply] at hv'
    split_ifs at hv'
    · cases hv'
      rfl
    · exact h.fake id' v' hv' hfake
  · have hrest : BatchSession.rest { s with stmts := s.stmts.put id ⟨.new, []⟩ } = s.rest := by
      funext id'
      change (Option.elim (s.stmts.put id _ id') [] _) = _
      rw [Store.put_apply]
      split_ifs with heq
      · rw [heq, BatchSession.rest, hnone]
        rfl
      · rfl
    rw [hrest]
    exact hqueued

/-- A call is answered as it should be, and the driver agrees behind it, exactly when the handle is
one there is, and the call takes nothing that is left for another. -/
theorem BatchAgrees.step_iff (h : BatchAgrees lib d s) (input : ℕ × BatchCall Q ρ) :
    (∃ d' out, d.step lib texts input = some (d', out) ∧
        (BatchSession.spec lib.answers texts).right s input out ∧
        BatchAgrees lib d' ((BatchSession.spec lib.answers texts).next s input)) ↔
      (BatchSession.spec lib.answers texts).allowed s input := by
  obtain ⟨id, call⟩ := input
  have hstmt : d.stmts id = (s.stmts id).map BatchView.stmt := congrFun h.stmts id
  simp only [BatchDbc.step, BatchSession.spec]
  cases hv : s.stmts id with
  | none =>
    rw [hv] at hstmt
    cases call with
    | allocStmt =>
      simp only [hstmt, Option.map_none, iff_true]
      exact ⟨_, _, rfl, rfl, h.allocStmt hv⟩
    | _ => simp only [hstmt, Option.map_none, reduceCtorEq, false_and, exists_false]
  | some v =>
    rw [hv] at hstmt
    have htracked : Tracked lib texts d s id v call ↔ s.Harmless id v call := h.tracked_iff hv
    cases call with
    | allocStmt => simp only [hstmt, Option.map_some, reduceCtorEq, false_and, exists_false]
    | _ =>
      simp only [hstmt, Option.map_some, Option.some.injEq]
      rw [← htracked]
      constructor
      · rintro ⟨d', out, heq, hout, hagrees⟩
        cases heq
        exact ⟨hout, hagrees⟩
      · rintro ⟨hout, hagrees⟩
        exact ⟨_, _, rfl, hout, hagrees⟩

/-- A harmless call returns what it should. -/
theorem BatchAgrees.step (h : BatchAgrees lib d s) (texts : ErrorTexts)
    (hv : s.stmts id = some v) (hcall : call ≠ .allocStmt)
    (hharmless : s.Harmless id v call) :
    ∃ d', d.step lib texts (id, call) = some (d', (v.call lib.answers texts call).2) ∧
      BatchAgrees lib d' (s.behind lib.answers texts id v call) := by
  obtain ⟨hout, hagrees⟩ := (h.tracked_iff hv).mpr hharmless
  refine ⟨_, ?_, hagrees⟩
  rw [← hout, BatchDbc.step, congrFun h.stmts id, Store.map_apply, hv]
  cases call with
  | allocStmt => exact absurd rfl hcall
  | _ => rfl

end Sessions

/-- The errors of a connection, which has the answers in a list. -/
def listErrno (c : ClientView ρ) : ℕ :=
  match c.current with
  | some (.failed errno _) => errno
  | _ => CR_COMMANDS_OUT_OF_SYNC

/-- A client library that has the answers in a list. -/
def listLib (answers : Q → List (BatchReply ρ)) (hne : ∀ q, answers q ≠ [])
    (herrno : ∀ q errno text, .failed errno text ∈ answers q → errno ≠ CR_COMMANDS_OUT_OF_SYNC) :
    ClientLib Q (ClientView ρ) ρ where
  answers := answers
  view c := c
  mysqlRealQuery c q :=
    if c.pending ≠ [] then (1, { c with current := none })
    else (if (answers q).head?.any BatchReply.isFailed then 1 else 0, .take (answers q))
  mysqlNextResult c :=
    if c.reading then (1, c)
    else match c.pending with
      | [] => (-1, .take [])
      | a :: rest => (if a.isFailed then 1 else 0, .take (a :: rest))
  mysqlStoreResult c :=
    (c.current.bind BatchReply.data, { c with
      reading := false
      affected := ((c.current.bind BatchReply.data).map fun data =>
        BitVec.ofNat 64 data.length).getD c.affected })
  mysqlUseResult c := (c.reading, c)
  mysqlFreeResult c := { c with reading := false }
  mysqlFieldCount c := if (c.current.bind BatchReply.data).isSome then 1 else 0
  mysqlAffectedRows c := c.affected
  mysqlErrno := listErrno
  mysqlError c := match c.current with
    | some (.failed _ text) => text
    | _ => []
  answers_ne_nil := hne
  errno_ne := herrno
  realQuery_busy c q h := by
    rw [if_pos h]
    exact ⟨one_ne_zero, rfl⟩
  realQuery_idle c q _ h := by
    rw [if_neg (not_not.mpr h)]
    refine ⟨?_, rfl⟩
    cases (answers q).head? with
    | none => simp
    | some a => cases h : a.isFailed <;> simp [h]
  nextResult_reading c h := by
    rw [if_pos h]
    exact one_pos
  nextResult_none c hread h := by simp [hread, h]
  nextResult_some c a rest hread h := by cases hfailed : a.isFailed <;> simp [hread, h, hfailed]
  view_nextResult c hread := by
    rw [if_neg (by simp [hread])]
    cases c.pending <;> rfl
  storeResult c _ := ⟨rfl, rfl⟩
  useResult c _ := ⟨rfl, rfl⟩
  view_freeResult c := rfl
  fieldCount c := by cases c.current.bind BatchReply.data <;> simp
  affectedRows c := rfl
  error_failed c errno text h := by simp [listErrno, h]

/-- A query of two rows with a change of three behind it, and a query that fails. -/
def twoAnswers : Bool → List (BatchReply ℕ)
  | true => [.rows [1, 2], .changed 3]
  | false => [.failed 1064 []]

/-- The table of errors as it is compiled. -/
def compiledTexts : ErrorTexts := ⟨fun e => (myodbc3Errors e).sqlstate, "[MySQL]".toList⟩

def twoLib : ClientLib Bool (ClientView ℕ) ℕ :=
  listLib twoAnswers (by decide) fun q errno text h => by
    cases q with
    | true => simp [twoAnswers] at h
    | false =>
      simp only [twoAnswers, List.mem_singleton, BatchReply.failed.injEq] at h
      rw [h.1]
      decide

/-- Two statements with the same batch, which is not executed. -/
def twoViews : BatchSession Bool ℕ :=
  ⟨fun id => if id ≤ 1 then some ⟨⟨.prepared, some true, none, false, 0⟩, []⟩ else none, false,
    noCount⟩

def twoStmts : BatchDbc Bool (ClientView ℕ) ℕ := ⟨.take [], twoViews.stmts.map BatchView.stmt⟩

theorem rest_twoViews (id : ℕ) : twoViews.rest id = [] := by
  change Option.elim (if id ≤ 1 then _ else _) _ _ = _
  split_ifs <;> rfl

theorem agrees_twoStmts : BatchAgrees twoLib twoStmts twoViews := by
  refine ⟨rfl, fun id v hv _ => ?_, [], ⟨rfl, rfl, rfl⟩, ?_⟩
  · rw [← BatchSession.rest_of_some hv, rest_twoViews]
  · exact .nobody rest_twoViews (iff_of_false Bool.false_ne_true (not_not.mpr rfl))

section Runs

variable {lib : ClientLib Q C ρ} {texts : ErrorTexts} {d : BatchDbc Q C ρ} {s : BatchSession Q ρ}
variable {id : ℕ} {v : BatchView Q ρ} {st : BatchStmt Q ρ} {answers : List (BatchReply ρ)}

/-- What a batch returns: the errors behind the first answer are told from that of the first. -/
def replies (error : ℕ → List Char → BatchOut ρ) : List (BatchReply ρ) → List (BatchOut ρ)
  | [] => []
  | a :: answers => a.out error :: if a.isFailed then [] else replies moreError answers

theorem replies_cons {error : ℕ → List Char → BatchOut ρ} {a : BatchReply ρ} :
    replies error (a :: answers) = a.out error :: replies moreError (a.rest answers) := by
  rw [replies, BatchReply.rest]
  split_ifs <;> rfl

/-- A statement with answers left was executed. -/
theorem BatchStmt.state_answered {a : BatchReply ρ} (h : a.rest answers ≠ []) :
    (st.answered a).state = .executed := by
  cases a with
  | failed errno text => exact absurd rfl h
  | _ => rfl

/-- One more result of a batch. -/
theorem BatchView.replies_moreResults (hstate : v.rest ≠ [] → v.stmt.state = .executed) {n : ℕ} :
    (replies moreError v.rest ++ List.replicate (n + 1) BatchOut.noData).take (n + 1) =
      (v.call lib.answers texts .moreResults).2 ::
        (replies moreError (v.call lib.answers texts .moreResults).1.rest ++
          List.replicate n BatchOut.noData).take n := by
  rw [BatchView.call]
  cases hrest : v.rest with
  | nil => split_ifs <;> simp [took, replies, hrest, List.replicate_succ]
  | cons a answers =>
    have hexecuted : v.stmt.state = .executed := hstate (hrest ▸ List.cons_ne_nil a answers)
    rw [if_pos hexecuted, replies_cons, List.cons_append, List.take_succ_cons]
    simp [took, List.take_append, List.take_replicate]
    omega

theorem BatchView.state_moreResults (hstate : v.rest ≠ [] → v.stmt.state = .executed) :
    (v.call lib.answers texts .moreResults).1.rest ≠ [] →
      (v.call lib.answers texts .moreResults).1.stmt.state = .executed := by
  rw [BatchView.call]
  split_ifs with hexecuted
  · cases v.rest with
    | nil => exact fun hne => absurd rfl hne
    | cons a answers => exact BatchStmt.state_answered
  · exact hstate

theorem BatchAgrees.run_moreResults (h : BatchAgrees lib d s) (hv : s.stmts id = some v)
    (hothers : s.Others id) (hstray : s.stray = false)
    (hstate : v.rest ≠ [] → v.stmt.state = .executed) (n : ℕ) :
    ∃ d', Refinement.run (BatchDbc.step lib texts) d (List.replicate n (id, .moreResults)) =
      some (d', (replies moreError v.rest ++ List.replicate n BatchOut.noData).take n) := by
  induction n generalizing d s v with
  | zero => exact ⟨d, by simp⟩
  | succ n ih =>
    have hharmless : s.Harmless id v .moreResults := fun _ => ⟨hothers, hstray⟩
    obtain ⟨d', hstep, hagrees⟩ := h.step texts hv (by simp) hharmless
    obtain ⟨d'', hrun⟩ := ih hagrees Store.put_self (BatchSession.alone_behind hothers) hstray
      (BatchView.state_moreResults hstate)
    refine ⟨d'', ?_⟩
    rw [List.replicate_succ, Refinement.run_cons hstep, hrun, BatchView.replies_moreResults hstate]
    rfl

/-- A batch that is executed while nothing is left for other statements, nor stray behind a result
that the driver made, returns the answers of the server in their order, each once, up to the first
error, and then that there are no more. -/
theorem BatchAgrees.run_batch (h : BatchAgrees lib d s) (hv : s.stmts id = some v) {q : Q}
    (hq : v.stmt.query = some q) (hothers : s.Others id)
    (hstray : v.stmt.fakeResult = true → s.stray = false) (n : ℕ) :
    ∃ d', Refinement.run (BatchDbc.step lib texts) d
        ((id, .execute) :: List.replicate n (id, .moreResults)) =
      some (d', (replies texts.queryError (lib.answers q) ++
        List.replicate n BatchOut.noData).take (n + 1)) := by
  have hharmless : s.Harmless id v .execute := fun _ => ⟨hothers, hstray⟩
  obtain ⟨d', hstep, hagrees⟩ := h.step texts hv (by simp) hharmless
  obtain ⟨a, answers, hanswers⟩ := List.exists_cons_of_ne_nil (lib.answers_ne_nil q)
  have hcall : v.call lib.answers texts .execute =
      (⟨v.stmt.unbound.answered a, a.rest answers⟩, a.out texts.queryError) := by
    rw [BatchView.call, hq]
    simp only [hanswers, BatchView.took]
  have hstray' : (s.behind lib.answers texts id v .execute).stray = false := by
    change (v.stmt.query.isNone && s.stray) = false
    rw [hq, Option.isNone_some, Bool.false_and]
  obtain ⟨d'', hrun⟩ := hagrees.run_moreResults Store.put_self
    (BatchSession.alone_behind hothers) hstray' (by rw [hcall]; exact BatchStmt.state_answered) n
  refine ⟨d'', ?_⟩
  rw [Refinement.run_cons hstep, hrun, hcall, hanswers, replies_cons]
  rfl

/-- The two answers of the batch are returned, and then that there are no more. -/
theorem run_batch_twoStmts : ∃ d',
    Refinement.run (BatchDbc.step twoLib compiledTexts) twoStmts
      ((0, .execute) :: List.replicate 3 (0, .moreResults)) =
    some (d', (replies compiledTexts.queryError (twoLib.answers true) ++
      List.replicate 3 BatchOut.noData).take 4) :=
  agrees_twoStmts.run_batch rfl rfl (fun id _ => rest_twoViews id) (fun _ => rfl) 3

end Runs

end MatrixOdbc.Driver
