import MatrixOdbc.Driver.SessionCaches
import Mathlib.Data.Nat.Digits.Lemmas

/-!
# Time limits of statements

A time limit belongs to a statement, but `max_execution_time` is a variable of the
session that all statements of the connection share. It is that of the statement being
executed as long as the statement's own time limit is the last one that was asked for.
-/

namespace MatrixOdbc.Driver

open Refinement

/-- What has been asked for on a connection: the time limit of each allocated statement,
if it has asked for one, and the time limit asked for last in the session, 0 for none.
`asleep` says that the connection has been reset and not used since. -/
structure AskedTimeouts where
  asked : ℕ → Option (Option ℕ)
  last : ℕ
  asleep : Bool

namespace AskedTimeouts

/-- The connection is used. -/
def wake (t : AskedTimeouts) (woken : Bool) : Option AskedTimeouts :=
  if t.asleep then if woken then some { t with asleep := false } else none else some t

/-- What has been asked for behind a call. -/
def next (t : AskedTimeouts) (input : SessionInput) : AskedTimeouts :=
  match input.call with
  | .allocStmt stmt =>
    match t.wake input.woken with
    | none => t
    | some t =>
      if (t.asked stmt).isSome then t
      else { t with asked := Function.update t.asked stmt (some none) }
  | .freeStmt stmt => { t with asked := Function.update t.asked stmt none }
  | .setQueryTimeout stmt value =>
    if (t.asked stmt).isSome && input.answered then
      { t with asked := Function.update t.asked stmt (some (some value)), last := value }
    else t
  | .setTxnIsolation _ | .getTxnIsolation => (t.wake input.woken).getD t
  | .resetConnection =>
    match t.wake input.woken with
    | none => t
    | some _ => ⟨fun _ => none, 0, true⟩
  | .setMaxRows .. | .prepare _ | .execute _ => t

end AskedTimeouts

/-- The `max_execution_time` a time limit in seconds stands for. -/
def timeoutOf (server : SqlServer) (seconds : ℕ) : ℕ :=
  if seconds = 0 then server.defaults.maxExecutionTime else seconds * 1000

/-- Time limits of the statements. A statement asks for a time limit that the server can
keep, and asks for its own time limit again only while that is the last one asked for. It
is executed only while its time limit is the last one asked for. -/
def timeoutSpec (server : SqlServer) : Spec AskedTimeouts SessionInput SessionOutput where
  next := AskedTimeouts.next
  allowed t input :=
    match input.call with
    | .setQueryTimeout stmt value => server.hasMaxExecutionTime = true ∧
        value * 1000 ≤ 4294967295 ∧ (t.asked stmt = some (some value) → t.last = value)
    | .execute stmt => ∀ limit, t.asked stmt = some limit → limit.getD 0 = t.last
    | _ => True
  right t input output :=
    match input.call, output with
    | .execute stmt, .sent _ session => ∀ limit, t.asked stmt = some limit →
        session.maxExecutionTime = timeoutOf server (limit.getD 0)
    | _, _ => True

section Follows

variable {server : SqlServer} {dbc dbc' : DbcState} {t t' : AskedTimeouts} {stmt value : ℕ}
  {answered woken : Bool}

/-- The statements keep what they have asked for, and the session has what was asked for
last. -/
structure FollowsAsked (server : SqlServer) (dbc : DbcState) (t : AskedTimeouts) : Prop where
  asleep : dbc.needToWakeup = t.asleep
  stmts : ∀ stmt, (dbc.stmts stmt).map StmtLimits.queryTimeout =
    (t.asked stmt).map fun limit => limit.getD sqlSelectUnlimited
  small : ∀ stmt value, t.asked stmt = some (some value) → value * 1000 ≤ 4294967295
  session : t.asleep = false → dbc.session.maxExecutionTime = timeoutOf server t.last
  fresh : t.asleep = true → t.last = 0 ∧ ∀ stmt, t.asked stmt = none

theorem printedNumber_of_le {n : ℕ} (h : n ≤ 4294967295) : printedNumber 18 n = n := by
  have hlength : (Nat.digits 10 n).length ≤ 18 := by
    rw [Nat.digits_length_le_iff (by omega)]
    omega
  rw [printedNumber, Nat.sub_eq_zero_of_le hlength, pow_zero, Nat.div_one]

/-- A time limit the server can keep reaches the session. -/
theorem sessionTime_of_le (h : value * 1000 ≤ 4294967295) :
    sessionTime server value = timeoutOf server value := by
  unfold sessionTime timeoutOf
  by_cases hzero : value = 0
  · simp [hzero]
  · rw [if_pos (by omega), if_neg hzero, Nat.mod_eq_of_lt (by omega), printedNumber_of_le h,
      server.storedTime_of_le _ h]

/-- Using the connection wakes up both. -/
theorem FollowsAsked.wake (h : FollowsAsked server dbc t) (woken : Bool) :
    (wakeupConnIfNeeded server woken dbc = none ∧ t.wake woken = none) ∨
      ∃ dbc' t', wakeupConnIfNeeded server woken dbc = some dbc' ∧ t.wake woken = some t' ∧
        t'.asleep = false ∧ FollowsAsked server dbc' t' := by
  unfold wakeupConnIfNeeded AskedTimeouts.wake
  rw [h.asleep]
  cases hasleep : t.asleep with
  | false => exact .inr ⟨dbc, t, rfl, rfl, hasleep, h⟩
  | true =>
    obtain ⟨hlast, hnone⟩ := h.fresh hasleep
    cases woken with
    | false => exact .inl ⟨rfl, rfl⟩
    | true =>
      refine .inr ⟨_, _, rfl, rfl, rfl, rfl, h.stmts, h.small, fun _ => ?_, nofun⟩
      show server.defaults.maxExecutionTime = timeoutOf server t.last
      rw [hlast]
      rfl

/-- One statement changes with what it has asked for. -/
theorem FollowsAsked.update (h : FollowsAsked server dbc t) (stmt : ℕ)
    (options : Option StmtLimits) (limit : Option (Option ℕ))
    (hasleep : t.asleep = true → limit = none)
    (hoptions : options.map StmtLimits.queryTimeout =
      limit.map fun limit => limit.getD sqlSelectUnlimited)
    (hsmall : ∀ value, limit = some (some value) → value * 1000 ≤ 4294967295) :
    FollowsAsked server { dbc with stmts := Function.update dbc.stmts stmt options }
      { t with asked := Function.update t.asked stmt limit } := by
  refine ⟨h.asleep, fun other => ?_, fun other value hvalue => ?_, h.session, fun hreset => ?_⟩
  · simp only [Function.update_apply]
    split_ifs
    · exact hoptions
    · exact h.stmts other
  · simp only [Function.update_apply] at hvalue
    split_ifs at hvalue
    · exact hsmall value hvalue
    · exact h.small other value hvalue
  · refine ⟨(h.fresh hreset).1, fun other => ?_⟩
    simp only [Function.update_apply]
    split_ifs
    · exact hasleep hreset
    · exact (h.fresh hreset).2 other

/-- What an allocated statement has asked for. -/
theorem FollowsAsked.asked (h : FollowsAsked server dbc t) {options : StmtLimits}
    (hstmt : dbc.stmts stmt = some options) :
    t.asleep = false ∧ ∃ limit, t.asked stmt = some limit ∧
      options.queryTimeout = limit.getD sqlSelectUnlimited := by
  have hmap := h.stmts stmt
  rw [hstmt, Option.map_some] at hmap
  cases hasked : t.asked stmt with
  | none =>
    rw [hasked] at hmap
    exact absurd hmap (by simp)
  | some limit =>
    rw [hasked, Option.map_some, Option.some.injEq] at hmap
    refine ⟨?_, limit, rfl, hmap⟩
    by_contra hasleep
    rw [(h.fresh (by simpa using hasleep)).2 stmt] at hasked
    exact absurd hasked (by simp)

theorem FollowsAsked.asked_none (h : FollowsAsked server dbc t) (hstmt : dbc.stmts stmt = none) :
    t.asked stmt = none := by
  have hmap := h.stmts stmt
  rw [hstmt, Option.map_none] at hmap
  simpa using hmap.symm

/-- Calls that concern neither the statements nor `max_execution_time`. -/
theorem FollowsAsked.of_eq (h : FollowsAsked server dbc t) (hstmts : dbc'.stmts = dbc.stmts)
    (hneed : dbc'.needToWakeup = dbc.needToWakeup)
    (hsession : dbc'.session.maxExecutionTime = dbc.session.maxExecutionTime) :
    FollowsAsked server dbc' t := by
  refine ⟨hneed.trans h.asleep, fun stmt => ?_, h.small, fun hawake => ?_, h.fresh⟩
  · rw [hstmts]
    exact h.stmts stmt
  · rw [hsession]
    exact h.session hawake

theorem setSqlSelectLimit_session (server : SqlServer) (limit : ℕ) (answered : Bool)
    (dbc : DbcState) :
    (setSqlSelectLimit server limit answered dbc).2.session.maxExecutionTime =
      dbc.session.maxExecutionTime := by
  unfold setSqlSelectLimit
  split_ifs <;> rfl

/-- The row limit is set without touching the time limit. -/
theorem FollowsAsked.sendQuery (h : FollowsAsked server dbc t) (limit : ℕ)
    (answered required : Bool) :
    FollowsAsked server (sendQuery server limit answered required dbc).1 t ∧
      ∀ sentLimit session,
        (Driver.sendQuery server limit answered required dbc).2 = .sent sentLimit session →
          session.maxExecutionTime = dbc.session.maxExecutionTime := by
  obtain ⟨hstmts, hneed⟩ := setSqlSelectLimit_frame server limit answered dbc
  have hsession := setSqlSelectLimit_session server limit answered dbc
  have hset := h.of_eq hstmts hneed hsession
  unfold Driver.sendQuery
  dsimp only
  split_ifs
  · refine ⟨hset, fun sentLimit session hsent => ?_⟩
    obtain ⟨-, rfl⟩ := SessionOutput.sent.inj hsent
    exact hsession
  · exact ⟨hset, nofun⟩

/-- A statement asks for a time limit. -/
theorem FollowsAsked.setQueryTimeout (h : FollowsAsked server dbc t) {options : StmtLimits}
    (hstmt : dbc.stmts stmt = some options) (hserver : server.hasMaxExecutionTime = true)
    (hsmall : value * 1000 ≤ 4294967295)
    (hagain : t.asked stmt = some (some value) → t.last = value) :
    FollowsAsked server (setQueryTimeout server stmt options value answered dbc).2
      (t.next ⟨.setQueryTimeout stmt value, answered, woken⟩) := by
  obtain ⟨hawake, limit, hasked, hkept⟩ := h.asked hstmt
  have hne : value ≠ sqlSelectUnlimited := by
    unfold sqlSelectUnlimited
    omega
  unfold Driver.setQueryTimeout AskedTimeouts.next
  simp only [hasked, Option.isSome_some, Bool.true_and, hserver, Bool.true_eq_false, or_false]
  by_cases hsame : value = options.queryTimeout
  · -- the `SET` is left out
    have hlimit : limit = some value := by
      cases limit with
      | none => exact absurd (hsame.trans hkept) hne
      | some other =>
        rw [hsame, hkept]
        rfl
    subst hlimit
    rw [if_pos hsame]
    have hlast := hagain hasked
    have hnext : AskedTimeouts.mk (Function.update t.asked stmt (some (some value))) value
        t.asleep = t := by
      rw [← hasked, Function.update_eq_self, ← hlast]
    split_ifs
    · rw [hnext]
      exact h
    · exact h
  · rw [if_neg hsame]
    cases answered with
    | false => exact h
    | true =>
      have hlast : FollowsAsked server { dbc with
          session := { dbc.session with maxExecutionTime := sessionTime server value } }
          { t with last := value } := by
        refine ⟨h.asleep, h.stmts, h.small, fun _ => sessionTime_of_le hsmall, fun hasleep => ?_⟩
        exact absurd (hawake.symm.trans hasleep) (by decide)
      apply hlast.update stmt _ _
      · intro hasleep
        exact absurd (hawake.symm.trans hasleep) (by decide)
      · rfl
      · intro other hother
        obtain rfl := Option.some.inj (Option.some.inj hother)
        exact hsmall

/-- One call keeps the session in line with what is asked for, and its output is right. -/
theorem sessionStep_follows (h : FollowsAsked server dbc t) {input : SessionInput}
    (hallowed : (timeoutSpec server).allowed t input) :
    (timeoutSpec server).right t input (sessionStep server dbc input).2 ∧
      FollowsAsked server (sessionStep server dbc input).1 (t.next input) := by
  obtain ⟨call, answered, woken⟩ := input
  cases call with
  | allocStmt stmt =>
    refine ⟨trivial, ?_⟩
    unfold sessionStep allocSessionStmt AskedTimeouts.next
    dsimp only
    rcases h.wake woken with ⟨hdbc, ht⟩ | ⟨dbc', t', hdbc, ht, hawake, h'⟩
    · rw [hdbc, ht]
      exact h
    · rw [hdbc, ht]
      dsimp only
      have hsome : (dbc'.stmts stmt).isSome = (t'.asked stmt).isSome := by
        simpa using congrArg Option.isSome (h'.stmts stmt)
      rw [hsome]
      split_ifs
      · exact h'
      · refine h'.update stmt _ _ (fun hasleep => ?_) rfl (by simp)
        exact absurd (hawake.symm.trans hasleep) (by decide)
  | freeStmt stmt =>
    exact ⟨trivial, h.update stmt _ _ (fun _ => rfl) rfl (by simp)⟩
  | setQueryTimeout stmt value =>
    refine ⟨trivial, ?_⟩
    obtain ⟨hserver, hsmall, hagain⟩ := hallowed
    cases hstmt : dbc.stmts stmt with
    | none =>
      simp only [sessionStep, hstmt, AskedTimeouts.next, h.asked_none hstmt]
      exact h
    | some options =>
      simp only [sessionStep, hstmt]
      exact h.setQueryTimeout hstmt hserver hsmall hagain
  | setMaxRows stmt value =>
    refine ⟨trivial, ?_⟩
    cases hstmt : dbc.stmts stmt with
    | none =>
      simp only [sessionStep, hstmt]
      exact h
    | some options =>
      obtain ⟨hawake, limit, hasked, hkept⟩ := h.asked hstmt
      have hupdate := h.update stmt (some { options with maxRows := value }) (some limit)
        (fun hasleep => absurd (hawake.symm.trans hasleep) (by decide))
        (by simpa using hkept) (fun other hother => h.small stmt other (hasked.trans hother))
      rw [← hasked, Function.update_eq_self] at hupdate
      simp only [sessionStep, hstmt]
      exact hupdate
  | prepare stmt =>
    refine ⟨trivial, ?_⟩
    cases hstmt : dbc.stmts stmt with
    | none =>
      simp only [sessionStep, hstmt]
      exact h
    | some options =>
      simp only [sessionStep, hstmt]
      exact (h.sendQuery _ _ _).1
  | execute stmt =>
    cases hstmt : dbc.stmts stmt with
    | none =>
      simp only [sessionStep, hstmt]
      exact ⟨trivial, h⟩
    | some options =>
      obtain ⟨hkeeps, hsent⟩ := h.sendQuery options.maxRows answered true
      obtain ⟨hawake, -⟩ := h.asked hstmt
      simp only [sessionStep, hstmt]
      refine ⟨?_, hkeeps⟩
      cases houtput : (sendQuery server options.maxRows answered true dbc).2 with
      | sent sentLimit session =>
        intro limit hasked
        rw [hsent sentLimit session houtput, h.session hawake]
        exact congrArg _ (hallowed limit hasked).symm
      | success | error | invalidHandle | isolation => trivial
  | setTxnIsolation value =>
    refine ⟨trivial, ?_⟩
    unfold sessionStep setTxnIsolation AskedTimeouts.next
    dsimp only
    rcases h.wake woken with ⟨hdbc, ht⟩ | ⟨dbc', t', hdbc, ht, hawake, h'⟩
    · rw [hdbc, ht]
      exact h
    · rw [hdbc, ht]
      cases server.transSupported with
      | false => exact h'
      | true =>
        cases TxnIsolation.ofCode value with
        | none => exact h'
        | some level =>
          cases answered with
          | false => exact h'
          | true => exact h'.of_eq rfl rfl rfl
  | getTxnIsolation =>
    refine ⟨trivial, ?_⟩
    unfold sessionStep getTxnIsolation AskedTimeouts.next
    dsimp only
    rcases h.wake woken with ⟨hdbc, ht⟩ | ⟨dbc', t', hdbc, ht, hawake, h'⟩
    · rw [hdbc, ht]
      exact h
    · rw [hdbc, ht]
      dsimp only
      split_ifs
      · exact h'.of_eq rfl rfl rfl
      · exact h'
      · exact h'
  | resetConnection =>
    refine ⟨trivial, ?_⟩
    unfold sessionStep AskedTimeouts.next
    dsimp only
    rcases h.wake woken with ⟨hdbc, ht⟩ | ⟨dbc', t', hdbc, ht, -, -⟩
    · rw [hdbc, ht]
      exact h
    · rw [hdbc, ht]
      refine ⟨rfl, fun _ => rfl, ?_, ?_, fun _ => ⟨rfl, fun _ => rfl⟩⟩
      · intro stmt value hnone
        cases hnone
      · intro hawake
        cases hawake

end Follows

/-- Nothing has been asked for on a new connection. -/
def nothingAsked : AskedTimeouts := ⟨fun _ => none, 0, false⟩

theorem connected_follows (server : SqlServer) (asked : ℕ) :
    FollowsAsked server (connected server asked) nothingAsked := by
  refine ⟨rfl, fun _ => rfl, nofun, fun _ => ?_, nofun⟩
  show (connected server asked).session.maxExecutionTime = server.defaults.maxExecutionTime
  unfold connected
  split_ifs <;> rfl

/-- Every query of a run finds the time limit of its statement in the session, if each
statement is executed, and asks for its time limit again, only while that is the last one
asked for. -/
theorem queryTimeout_belongs (server : SqlServer) (asked : ℕ) (inputs : List SessionInput)
    (hallowed : (timeoutSpec server).Allowed nothingAsked inputs) :
    ∃ dbc outputs,
      run (fun dbc input => some (sessionStep server dbc input)) (connected server asked) inputs =
        some (dbc, outputs) ∧
      (timeoutSpec server).Right nothingAsked inputs outputs := by
  have hrefines : Refines (fun dbc input => some (sessionStep server dbc input))
      (timeoutSpec server) (FollowsAsked server) := by
    intro dbc t input hfollows hinput
    obtain ⟨hright, hfollows'⟩ := sessionStep_follows hfollows hinput
    exact ⟨_, _, rfl, hright, hfollows'⟩
  obtain ⟨dbc, outputs, hrun, hright, -⟩ := hrefines.run (connected_follows server asked) hallowed
  exact ⟨dbc, outputs, hrun, hright⟩

/-- Two statements ask for time limits in turn, and are executed in turn. -/
def limitsInTurn : List SessionInput :=
  [.allocStmt 1, .execute 1, .allocStmt 2, .setQueryTimeout 1 5, .execute 1, .setQueryTimeout 2 10,
    .execute 2, .resetConnection, .allocStmt 3, .execute 3].map answeredCall

theorem queryTimeout_belongs_limitsInTurn :
    ∃ dbc outputs,
      run (fun dbc input => some (sessionStep plainServer dbc input)) (connected plainServer 0)
        limitsInTurn = some (dbc, outputs) ∧
      (timeoutSpec plainServer).Right nothingAsked limitsInTurn outputs := by
  apply queryTimeout_belongs plainServer 0 limitsInTurn
  refine ⟨trivial, ?_, trivial, ⟨rfl, by decide, nofun⟩, ?_, ⟨rfl, by decide, nofun⟩, ?_,
    trivial, trivial, ?_, trivial⟩
  all_goals
    intro limit hlimit
    obtain rfl := Option.some.inj hlimit
    rfl

/-- The first statement asks for its time limit again, behind another statement's. -/
def limitAskedAgain : List SessionInput :=
  [.allocStmt 1, .allocStmt 2, .setQueryTimeout 1 5, .setQueryTimeout 2 10, .setQueryTimeout 1 5,
    .execute 1].map answeredCall

/-- The `SET` is left out, and the first statement is executed with the time limit of the
second. -/
theorem queryTimeout_limitAskedAgain_not_belongs :
    ¬ ∃ dbc outputs,
      run (fun dbc input => some (sessionStep plainServer dbc input)) (connected plainServer 0)
        limitAskedAgain = some (dbc, outputs) ∧
      (timeoutSpec plainServer).Right nothingAsked limitAskedAgain outputs := by
  rintro ⟨dbc, outputs, hrun, hright⟩
  have houtputs : some outputs = some [.success, .success, .success, .success, .success,
      .sent 0 ⟨10000, 18446744073709551615, .repeatableRead⟩] :=
    (congrArg (Option.map Prod.snd) hrun).symm
  obtain rfl := Option.some.inj houtputs
  have hlast : 10000 = timeoutOf plainServer 5 := hright.2.2.2.2.2.1 (some 5) rfl
  exact absurd hlast (by decide)

end MatrixOdbc.Driver
