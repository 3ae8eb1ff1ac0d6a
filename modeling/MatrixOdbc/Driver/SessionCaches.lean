import MatrixOdbc.Driver.Session
import MatrixOdbc.Foundations.Refinement

/-!
# What the connection knows about its session

The row limit and the isolation level that a connection keeps, and the time limit that a
statement keeps, against the variables of the session. The first two agree with the
session as long as the connection is not reset while they differ from the defaults of
the server; a time limit is that of its statement as long as no other statement has
changed it.
-/

namespace MatrixOdbc.Driver

open Refinement

section Caches

variable {server : SqlServer} {dbc dbc' : DbcState} {input : SessionInput} {stmt limit : ℕ}
  {answered woken required : Bool}

/-- The `sql_select_limit` a row limit stands for: 0 and the largest number are no limit
of the connection's own. -/
def limitOf (server : SqlServer) (limit : ℕ) : ℕ :=
  if 0 < limit ∧ limit < sqlSelectUnlimited then limit else server.defaults.sqlSelectLimit

/-- What the connection keeps is what a session has. The isolation level 0 is not known. -/
structure AgreesWith (server : SqlServer) (dbc : DbcState) (session : SessionVars) : Prop where
  limit : session.sqlSelectLimit = limitOf server dbc.sqlSelectLimit
  isolation : dbc.txnIsolation = 0 ∨ dbc.txnIsolation = session.txnIsolation.code

/-- The session the next query of the connection finds. -/
def upcomingSession (server : SqlServer) (dbc : DbcState) : SessionVars :=
  if dbc.needToWakeup then server.defaults else dbc.session

/-- The connection agrees with its session, and has no statements before it wakes up. -/
structure CachesAgree (server : SqlServer) (dbc : DbcState) : Prop where
  agrees : AgreesWith server dbc (upcomingSession server dbc)
  asleep : dbc.needToWakeup = true → ∀ stmt, dbc.stmts stmt = none

theorem limitOf_unlimited : limitOf server sqlSelectUnlimited = server.defaults.sqlSelectLimit := by
  simp [limitOf]

/-- A row limit is set in the session and kept together. -/
theorem setSqlSelectLimit_agrees (limit : ℕ) (answered : Bool)
    (h : AgreesWith server dbc dbc.session) :
    AgreesWith server (setSqlSelectLimit server limit answered dbc).2
      (setSqlSelectLimit server limit answered dbc).2.session := by
  unfold setSqlSelectLimit
  split_ifs with hskip hanswered hlimit
  · exact h
  · exact h
  · exact ⟨by simp [limitOf, hlimit], h.isolation⟩
  · exact ⟨by simp [limitOf], h.isolation⟩

theorem setSqlSelectLimit_frame (server : SqlServer) (limit : ℕ) (answered : Bool)
    (dbc : DbcState) :
    (setSqlSelectLimit server limit answered dbc).2.stmts = dbc.stmts ∧
      (setSqlSelectLimit server limit answered dbc).2.needToWakeup = dbc.needToWakeup := by
  unfold setSqlSelectLimit
  split_ifs <;> exact ⟨rfl, rfl⟩

/-- A connection that has woken up agrees with its session, if it agreed before. -/
theorem CachesAgree.wakeup (h : CachesAgree server dbc)
    (hwake : wakeupConnIfNeeded server woken dbc = some dbc') :
    dbc'.needToWakeup = false ∧ AgreesWith server dbc' dbc'.session := by
  have hagrees := h.agrees
  unfold wakeupConnIfNeeded at hwake
  unfold upcomingSession at hagrees
  split_ifs at hwake hagrees with hneed hwoken
  · obtain rfl := Option.some.inj hwake
    exact ⟨rfl, hagrees.limit, hagrees.isolation⟩
  · obtain rfl := Option.some.inj hwake
    exact ⟨by simpa using hneed, hagrees⟩

/-- A connection that is awake and agrees with its session. -/
theorem CachesAgree.of_awake (hawake : dbc.needToWakeup = false)
    (h : AgreesWith server dbc dbc.session) : CachesAgree server dbc := by
  refine ⟨?_, fun hasleep => ?_⟩
  · rwa [upcomingSession, if_neg (by simp [hawake])]
  · rw [hawake] at hasleep
    exact absurd hasleep (by decide)

/-- A statement is allocated only while the connection is awake. -/
theorem CachesAgree.awake (h : CachesAgree server dbc) {options : StmtLimits}
    (hstmt : dbc.stmts stmt = some options) :
    dbc.needToWakeup = false ∧ AgreesWith server dbc dbc.session := by
  have hawake : dbc.needToWakeup = false := by
    by_contra hasleep
    rw [h.asleep (by simpa using hasleep)] at hstmt
    exact absurd hstmt (by simp)
  have hagrees := h.agrees
  rw [upcomingSession, if_neg (by simp [hawake])] at hagrees
  exact ⟨hawake, hagrees⟩

/-- What the outputs of calls have to say: the connection is right about the row limit of
every query, and reports the isolation level of the session. -/
def OutputAgrees (server : SqlServer) : SessionOutput → Prop
  | .sent limit session => session.sqlSelectLimit = limitOf server limit
  | .isolation value session => value = session.txnIsolation.code
  | _ => True

/-- The agreement of connection and session. A connection is reset only while what it
keeps agrees with the defaults of the server. -/
def cacheSpec (server : SqlServer) : Spec DbcState SessionInput SessionOutput where
  next dbc input := (sessionStep server dbc input).1
  allowed dbc input := input.call = .resetConnection → AgreesWith server dbc server.defaults
  right _ _ output := OutputAgrees server output

/-- A query is sent with the row limit the connection believes in. -/
theorem sendQuery_agrees (hawake : dbc.needToWakeup = false)
    (h : AgreesWith server dbc dbc.session) :
    OutputAgrees server (sendQuery server limit answered required dbc).2 ∧
      CachesAgree server (sendQuery server limit answered required dbc).1 := by
  have hset := setSqlSelectLimit_agrees limit answered h
  have hframe := (setSqlSelectLimit_frame server limit answered dbc).2
  have hcaches := CachesAgree.of_awake (hframe.trans hawake) hset
  unfold sendQuery
  dsimp only
  split_ifs
  · exact ⟨hset.limit, hcaches⟩
  · exact ⟨trivial, hcaches⟩

theorem code_ofCode {value : ℕ} {level : TxnIsolation} (h : TxnIsolation.ofCode value = some level) :
    level.code = value := by
  unfold TxnIsolation.ofCode at h
  split_ifs at h with h8 h4 h2 h1 <;> obtain rfl := Option.some.inj h
  · exact h8.symm
  · exact h4.symm
  · exact h2.symm
  · exact h1.symm

theorem allocSessionStmt_agrees (h : CachesAgree server dbc) :
    OutputAgrees server (allocSessionStmt server stmt woken dbc).2 ∧
      CachesAgree server (allocSessionStmt server stmt woken dbc).1 := by
  unfold allocSessionStmt
  cases hwake : wakeupConnIfNeeded server woken dbc with
  | none => exact ⟨trivial, h⟩
  | some dbc' =>
    obtain ⟨hawake, hagrees⟩ := h.wakeup hwake
    dsimp only
    split_ifs
    · exact ⟨trivial, .of_awake hawake hagrees⟩
    · exact ⟨trivial, .of_awake hawake ⟨hagrees.limit, hagrees.isolation⟩⟩

theorem setTxnIsolation_agrees {value : ℕ} (h : CachesAgree server dbc) :
    OutputAgrees server (setTxnIsolation server value answered woken dbc).2 ∧
      CachesAgree server (setTxnIsolation server value answered woken dbc).1 := by
  unfold setTxnIsolation
  cases hwake : wakeupConnIfNeeded server woken dbc with
  | none => exact ⟨trivial, h⟩
  | some dbc' =>
    obtain ⟨hawake, hagrees⟩ := h.wakeup hwake
    have hcaches := CachesAgree.of_awake hawake hagrees
    cases server.transSupported with
    | false => exact ⟨trivial, hcaches⟩
    | true =>
      cases hlevel : TxnIsolation.ofCode value with
      | none => exact ⟨trivial, hcaches⟩
      | some level =>
        cases answered with
        | false => exact ⟨trivial, hcaches⟩
        | true =>
          exact ⟨trivial, .of_awake hawake ⟨hagrees.limit, .inr (code_ofCode hlevel).symm⟩⟩

theorem getTxnIsolation_agrees (h : CachesAgree server dbc) :
    OutputAgrees server (getTxnIsolation server answered woken dbc).2 ∧
      CachesAgree server (getTxnIsolation server answered woken dbc).1 := by
  unfold getTxnIsolation
  cases hwake : wakeupConnIfNeeded server woken dbc with
  | none => exact ⟨trivial, h⟩
  | some dbc' =>
    obtain ⟨hawake, hagrees⟩ := h.wakeup hwake
    have hcaches := CachesAgree.of_awake hawake hagrees
    dsimp only
    split_ifs with hunknown
    · exact ⟨rfl, .of_awake hawake ⟨hagrees.limit, .inr rfl⟩⟩
    · exact ⟨trivial, hcaches⟩
    · exact ⟨hagrees.isolation.resolve_left hunknown, hcaches⟩

/-- `set_query_timeout` does not touch what the connection keeps. -/
theorem setQueryTimeout_agrees {options : StmtLimits} {value : ℕ}
    (hawake : dbc.needToWakeup = false) (h : AgreesWith server dbc dbc.session) :
    CachesAgree server (setQueryTimeout server stmt options value answered dbc).2 := by
  unfold setQueryTimeout
  split_ifs
  · exact .of_awake hawake h
  · exact .of_awake hawake h
  · exact .of_awake hawake ⟨h.limit, h.isolation⟩

/-- One call keeps the agreement, and its output is right. -/
theorem sessionStep_agrees (h : CachesAgree server dbc)
    (hallowed : (cacheSpec server).allowed dbc input) :
    OutputAgrees server (sessionStep server dbc input).2 ∧
      CachesAgree server (sessionStep server dbc input).1 := by
  obtain ⟨call, answered, woken⟩ := input
  cases call with
  | allocStmt stmt => exact allocSessionStmt_agrees h
  | freeStmt stmt =>
    refine ⟨trivial, ⟨h.agrees.limit, h.agrees.isolation⟩, fun hasleep other => ?_⟩
    show Function.update dbc.stmts stmt none other = none
    rw [Function.update_apply, h.asleep hasleep other, ite_self]
  | setQueryTimeout stmt value =>
    cases hstmt : dbc.stmts stmt with
    | none =>
      simp only [sessionStep, hstmt]
      exact ⟨trivial, h⟩
    | some options =>
      obtain ⟨hawake, hagrees⟩ := h.awake hstmt
      simp only [sessionStep, hstmt]
      refine ⟨?_, setQueryTimeout_agrees hawake hagrees⟩
      split_ifs <;> trivial
  | setMaxRows stmt value =>
    cases hstmt : dbc.stmts stmt with
    | none =>
      simp only [sessionStep, hstmt]
      exact ⟨trivial, h⟩
    | some options =>
      obtain ⟨hawake, hagrees⟩ := h.awake hstmt
      simp only [sessionStep, hstmt]
      exact ⟨trivial, .of_awake hawake ⟨hagrees.limit, hagrees.isolation⟩⟩
  | prepare stmt =>
    cases hstmt : dbc.stmts stmt with
    | none =>
      simp only [sessionStep, hstmt]
      exact ⟨trivial, h⟩
    | some options =>
      obtain ⟨hawake, hagrees⟩ := h.awake hstmt
      simp only [sessionStep, hstmt]
      exact sendQuery_agrees hawake hagrees
  | execute stmt =>
    cases hstmt : dbc.stmts stmt with
    | none =>
      simp only [sessionStep, hstmt]
      exact ⟨trivial, h⟩
    | some options =>
      obtain ⟨hawake, hagrees⟩ := h.awake hstmt
      simp only [sessionStep, hstmt]
      exact sendQuery_agrees hawake hagrees
  | setTxnIsolation value => exact setTxnIsolation_agrees h
  | getTxnIsolation => exact getTxnIsolation_agrees h
  | resetConnection =>
    have hdefaults : AgreesWith server dbc server.defaults := hallowed rfl
    unfold sessionStep
    dsimp only
    cases hwake : wakeupConnIfNeeded server woken dbc with
    | none => exact ⟨trivial, h⟩
    | some dbc' =>
      have hkept : dbc'.sqlSelectLimit = dbc.sqlSelectLimit ∧
          dbc'.txnIsolation = dbc.txnIsolation := by
        unfold wakeupConnIfNeeded at hwake
        split_ifs at hwake <;> obtain rfl := Option.some.inj hwake <;> exact ⟨rfl, rfl⟩
      refine ⟨trivial, ⟨?_, ?_⟩, fun _ _ => rfl⟩
      · show server.defaults.sqlSelectLimit = limitOf server dbc'.sqlSelectLimit
        rw [hkept.1]
        exact hdefaults.limit
      · show dbc'.txnIsolation = 0 ∨ dbc'.txnIsolation = server.defaults.txnIsolation.code
        rw [hkept.2]
        exact hdefaults.isolation

/-- A new connection agrees with its session, if no isolation level or one of the four was
asked for. -/
theorem connected_agrees {asked : ℕ}
    (hasked : asked = 0 ∨ server.transSupported = true ∧ (TxnIsolation.ofCode asked).isSome) :
    CachesAgree server (connected server asked) := by
  refine .of_awake rfl ⟨?_, ?_⟩
  · show (connected server asked).session.sqlSelectLimit = limitOf server sqlSelectUnlimited
    rw [limitOf_unlimited]
    unfold connected
    split_ifs <;> rfl
  · rcases hasked with rfl | ⟨htrans, hlevel⟩
    · exact .inl rfl
    · obtain ⟨level, hlevel⟩ := Option.isSome_iff_exists.mp hlevel
      have hcode := code_ofCode hlevel
      refine .inr ?_
      subst hcode
      cases level <;> simp [connected, htrans, TxnIsolation.code, TxnIsolation.ofBits]

end Caches

/-- The connection agrees with its session along every run in which it is reset only while
what it keeps agrees with the defaults of the server. -/
theorem sessionCaches_agree (server : SqlServer) (asked : ℕ)
    (hasked : asked = 0 ∨ server.transSupported = true ∧ (TxnIsolation.ofCode asked).isSome)
    (inputs : List SessionInput)
    (hallowed : (cacheSpec server).Allowed (connected server asked) inputs) :
    ∃ dbc outputs,
      run (fun dbc input => some (sessionStep server dbc input)) (connected server asked) inputs =
        some (dbc, outputs) ∧
      (cacheSpec server).Right (connected server asked) inputs outputs ∧
      CachesAgree server dbc := by
  have hrefines : Refines (fun dbc input => some (sessionStep server dbc input))
      (cacheSpec server) fun s t => s = t ∧ CachesAgree server s := by
    rintro s t input ⟨rfl, hagree⟩ hinput
    obtain ⟨hright, hagree'⟩ := sessionStep_agrees hagree hinput
    exact ⟨_, _, rfl, hright, rfl, hagree'⟩
  obtain ⟨dbc, outputs, hrun, hright, -, hagree⟩ :=
    hrefines.run ⟨rfl, connected_agrees hasked⟩ hallowed
  exact ⟨dbc, outputs, hrun, hright, hagree⟩

/-- A server that keeps every number. -/
def plainServer : SqlServer where
  defaults := ⟨0, 18446744073709551615, .repeatableRead⟩
  hasMaxExecutionTime := true
  transSupported := true
  storedTime := id
  storedTime_of_le _ _ := rfl

/-- A call during which the server answers. -/
def answeredCall (call : SessionCall) : SessionInput := ⟨call, true, true⟩

/-- A statement is executed with a row limit. Then the limit is taken back, the isolation
level is asked for, and the connection is reset and used again. -/
def limitTakenBack : List SessionInput :=
  [.allocStmt 1, .setMaxRows 1 10, .execute 1, .setMaxRows 1 0, .execute 1, .getTxnIsolation,
    .resetConnection, .allocStmt 2, .setMaxRows 2 10, .execute 2].map answeredCall

theorem sessionCaches_agree_limitTakenBack :
    ∃ dbc outputs,
      run (fun dbc input => some (sessionStep plainServer dbc input)) (connected plainServer 0)
        limitTakenBack = some (dbc, outputs) ∧
      (cacheSpec plainServer).Right (connected plainServer 0) limitTakenBack outputs ∧
      CachesAgree plainServer dbc := by
  apply sessionCaches_agree plainServer 0 (.inl rfl) limitTakenBack
  refine ⟨nofun, nofun, nofun, nofun, nofun, nofun, fun _ => ?_, nofun, nofun, nofun, trivial⟩
  exact ⟨rfl, .inr rfl⟩

/-- Statements with the same row limit are executed before and after a reset. -/
def limitAcrossReset : List SessionInput :=
  [.allocStmt 1, .setMaxRows 1 10, .execute 1, .resetConnection, .allocStmt 2, .setMaxRows 2 10,
    .execute 2].map answeredCall

/-- The second query is sent without the `SET`, to a session without a row limit. -/
theorem sessionCaches_limitAcrossReset_not_agree :
    ¬ ∃ dbc outputs,
      run (fun dbc input => some (sessionStep plainServer dbc input)) (connected plainServer 0)
        limitAcrossReset = some (dbc, outputs) ∧
      (cacheSpec plainServer).Right (connected plainServer 0) limitAcrossReset outputs := by
  rintro ⟨dbc, outputs, hrun, hright⟩
  have houtputs : some outputs = some [.success, .success,
      .sent 10 ⟨0, 10, .repeatableRead⟩, .success, .success, .success,
      .sent 10 ⟨0, 18446744073709551615, .repeatableRead⟩] :=
    (congrArg (Option.map Prod.snd) hrun).symm
  obtain rfl := Option.some.inj houtputs
  have hlast : 18446744073709551615 = limitOf plainServer 10 := hright.2.2.2.2.2.2.1
  exact absurd hlast (by decide)

end MatrixOdbc.Driver
