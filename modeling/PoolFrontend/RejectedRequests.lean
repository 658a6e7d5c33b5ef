import PoolFrontend.Endpoints

/-!
# A rejected request changes nothing

The one mutating call of each endpoint, with the checks it has passed and the
arguments it carries, read off the request and not off the handler.
-/
namespace RejectedRequests

open CallbackProgram CallbackRuns CallbackTrace CallbackCommit
open Json Poolcore Server RequestFields UserHandlers BackendHandlers Router Endpoints
open Handler (program)

variable (server : PoolHttpServer) (ms : Members)

/-- The session check, as a table. -/
abbrev Sessions := String → String → Bool → Option UserWithAccessRights

variable (validate : Sessions)

/-- The author of a new user: nobody without a session, else the login of the session. -/
def Author (sessionId login : String) : Prop :=
  (sessionId = "" ∧ login = "") ∨
    (sessionId ≠ "" ∧ ∃ tokenInfo, validate sessionId "" false = some tokenInfo ∧
      login = tokenInfo.login)

/-- The settings an accepted `userUpdateSettings` stores. -/
def SettingsChecked (settings : UserSettingsRecord) (totp : String) : Prop :=
  ∃ sessionId targetLogin payoutThreshold coinIdx tokenInfo,
    updateSettingsMembers ms = some (sessionId, targetLogin, settings.coin, settings.address,
      payoutThreshold, settings.autoPayout, totp) ∧
    server.userManager.coinIdxMap settings.coin = some coinIdx ∧
    server.helpers.parseMoneyValue payoutThreshold
      (server.userManager.coinInfo.get coinIdx).rationalPartSize = some settings.minimalPayout ∧
    server.helpers.checkAddress (server.userManager.coinInfo.get coinIdx) settings.address
      (server.userManager.coinInfo.get coinIdx).payoutAddressType = true ∧
    validate sessionId targetLogin true = some tokenInfo ∧ settings.login = tokenInfo.login

/-- The mutating call of an endpoint carries exactly the values its checks were about. -/
def Checked : FunctionTy → Call → Prop
  | .fnUserAction, c => ∃ actionId newPassword totp,
    userActionMembers ms = some (actionId, newPassword, totp) ∧
    c = .userAction actionId newPassword totp
  | .fnUserCreate, c => ∃ sessionId login newCredentials,
    userCreateMembers ms = some (sessionId, newCredentials) ∧ Author validate sessionId login ∧
    c = .userCreate login newCredentials
  | .fnUserResendEmail, c => ∃ asked, credentials ms = some asked ∧ c = .userResendEmail asked
  | .fnUserLogin, c => ∃ asked, credentials ms = some asked ∧ c = .userLogin asked
  | .fnUserLogout, c => ∃ id, string ms "id" = some id ∧ c = .userLogout id
  | .fnUserQueryMonitoringSession, c => ∃ id target,
    sessionTargetMembers ms "id" = some (id, target) ∧ c = .userQueryMonitoringSession id target
  | .fnUserChangePasswordInitiate, c => ∃ login,
    string ms "login" = some login ∧ c = .userChangePasswordInitiate login
  | .fnUserChangePasswordForce, c => ∃ id login newPassword,
    changePasswordForceMembers ms = some (id, login, newPassword) ∧
    c = .userChangePasswordForce id login newPassword
  | .fnUserUpdateCredentials, c => ∃ id target asked,
    updateCredentialsMembers ms = some (id, target, asked) ∧ c = .updateCredentials id target asked
  | .fnUserUpdateSettings, c => ∃ settings totp,
    SettingsChecked server ms validate settings totp ∧ c = .updateSettings settings totp
  | .fnUserUpdateFeePlan, c => ∃ id record, feePlanMembers ms = some (id, record) ∧
    (∀ fee ∈ record.coinSpecificFee, (server.backend fee.coinName).isSome = true) ∧
    c = .updateFeePlan id record
  | .fnUserChangeFeePlan, c => ∃ id target feePlanId,
    changeFeePlanMembers ms = some (id, target, feePlanId) ∧ c = .changeFeePlan id target feePlanId
  | .fnUserActivate2faInitiate, c => ∃ id target,
    sessionTargetMembers ms "sessionId" = some (id, target) ∧ c = .activate2faInitiate id target
  | .fnUserDeactivate2faInitiate, c => ∃ id target,
    sessionTargetMembers ms "sessionId" = some (id, target) ∧ c = .deactivate2faInitiate id target
  | .fnBackendManualPayout, c => ∃ id target coin tokenInfo backend,
    sessionTargetCoinMembers ms = some (id, target, coin) ∧
    validate id target true = some tokenInfo ∧ server.backend coin = some backend ∧
    c = .manualPayout backend.accountingDb tokenInfo.login
  | .fnBackendUpdateProfitSwitchCoeff, c => ∃ id coin coeff tokenInfo backend,
    profitSwitchCoeffMembers ms = some (id, coin, coeff) ∧
    validate id "" false = some tokenInfo ∧ tokenInfo.login = "admin" ∧
    server.backend coin = some backend ∧ c = .setProfitSwitchCoeff backend.handle coeff
  | _, _ => False

section Runs

variable {σ : Type} (serve : Environment Http σ) (s : σ)

/-- Every mutating call of the run is one of `P`. -/
def Mutates (P : Call → Prop) (p : Program Http) : Prop :=
  ∀ c ∈ calls (run serve p .handler s).1, mutates c = true → P c

variable {P : Call → Prop} {serve s}

theorem mutates_query {d : Prop} {p : Program Http} (h : Query d p) : Mutates serve s P p := by
  intro c hc hm
  rw [never_run mutates serve h.never .handler s c hc] at hm
  cases hm

theorem mutates_accepted {α : Type} {fields : Option α} {body : α → Server.Handler Unit}
    (h : ∀ values, fields = some values → Mutates serve s P (body values).program) :
    Mutates serve s P (accepted fields body).program := by
  cases fields with
  | none => exact mutates_query (@query_status True _)
  | some values => exact h values rfl

theorem mutates_later {c : Call} {reply : Answer c → Server.Handler Unit}
    (hreply : ∀ x, Replies (reply x)) (h : P c) :
    Mutates serve s P (answerLater c reply).program := by
  intro d hd hm
  have hd : d = c ∨ d ∈ calls (run serve (reply (serve s c).1 fun _ => .release .done)
      .callback (serve s c).2).1 := by
    simpa [program] using hd
  rcases hd with rfl | hd
  · exact h
  · rw [never_run mutates serve (replies_release (hreply _)).2 .callback _ d hd] at hm
    cases hm

theorem mutates_ask {c : Call} {f : Answer c → Server.Handler Unit} (hc : mutates c = false)
    (h : Mutates serve (serve s c).2 P (f (serve s c).1).program) :
    Mutates serve s P (ask c >>= f).program := by
  intro d hd hm
  rcases List.mem_cons.mp hd with rfl | hd
  · rw [hc] at hm
    cases hm
  · exact h d hd hm

end Runs

section Handlers

variable {σ : Type} (serve : Environment Http σ) (s : σ)

/-- The session table a run starts with. -/
def sessionsAt : Sessions := fun sessionId targetLogin needWriteAccess =>
  (serve s (.validateSession sessionId targetLogin needWriteAccess)).1

/-- What the request may make the core change. -/
abbrev CheckedAt (f : FunctionTy) : Call → Prop := Checked server ms (sessionsAt serve s) f

theorem onUserAction_checked :
    Mutates serve s (CheckedAt server ms serve s .fnUserAction)
      (onUserAction (.object ms)).program := by
  rw [onUserAction, withFields_userAction]
  apply mutates_accepted
  rintro ⟨_, _, _⟩ hfields
  exact mutates_later replies_status ⟨_, _, _, hfields, rfl⟩

theorem onUserCreate_checked :
    Mutates serve s (CheckedAt server ms serve s .fnUserCreate)
      (onUserCreate (.object ms)).program := by
  rw [onUserCreate, withFields_userCreate]
  apply mutates_accepted
  rintro ⟨sessionId, newCredentials⟩ hfields
  by_cases hid : sessionId = ""
  · simp only [hid, ne_eq, not_true_eq_false, if_false]
    exact mutates_later replies_status ⟨sessionId, "", _, hfields, Or.inl ⟨hid, rfl⟩, rfl⟩
  · simp only [hid, ne_eq, not_false_eq_true, if_true]
    refine mutates_ask rfl ?_
    cases hx : (serve s (.validateSession sessionId "" false)).1 with
    | none => exact mutates_query (@query_status True _)
    | some tokenInfo =>
      exact mutates_later replies_status
        ⟨sessionId, tokenInfo.login, _, hfields, Or.inr ⟨hid, tokenInfo, hx, rfl⟩, rfl⟩

theorem onUserResendEmail_checked :
    Mutates serve s (CheckedAt server ms serve s .fnUserResendEmail)
      (onUserResendEmail (.object ms)).program := by
  rw [onUserResendEmail, withFields_credentials]
  exact mutates_accepted fun _ hfields => mutates_later replies_status ⟨_, hfields, rfl⟩

theorem onUserLogin_checked :
    Mutates serve s (CheckedAt server ms serve s .fnUserLogin)
      (onUserLogin (.object ms)).program := by
  rw [onUserLogin, withFields_credentials]
  exact mutates_accepted fun _ hfields =>
    mutates_later (fun _ => replies_object _) ⟨_, hfields, rfl⟩

theorem onUserLogout_checked :
    Mutates serve s (CheckedAt server ms serve s .fnUserLogout)
      (onUserLogout (.object ms)).program := by
  rw [onUserLogout, withFields_string]
  exact mutates_accepted fun _ hfields => mutates_later replies_status ⟨_, hfields, rfl⟩

theorem onUserQueryMonitoringSession_checked :
    Mutates serve s (CheckedAt server ms serve s .fnUserQueryMonitoringSession)
      (onUserQueryMonitoringSession (.object ms)).program := by
  rw [onUserQueryMonitoringSession, withFields_sessionTarget]
  apply mutates_accepted
  rintro ⟨_, _⟩ hfields
  exact mutates_later (fun _ => replies_object _) ⟨_, _, hfields, rfl⟩

theorem onUserChangePasswordInitiate_checked :
    Mutates serve s (CheckedAt server ms serve s .fnUserChangePasswordInitiate)
      (onUserChangePasswordInitiate (.object ms)).program := by
  rw [onUserChangePasswordInitiate, withFields_string]
  exact mutates_accepted fun _ hfields => mutates_later replies_status ⟨_, hfields, rfl⟩

theorem onUserChangePasswordForce_checked :
    Mutates serve s (CheckedAt server ms serve s .fnUserChangePasswordForce)
      (onUserChangePasswordForce (.object ms)).program := by
  rw [onUserChangePasswordForce, withFields_changePasswordForce]
  apply mutates_accepted
  rintro ⟨_, _, _⟩ hfields
  exact mutates_later replies_status ⟨_, _, _, hfields, rfl⟩

theorem onUserUpdateCredentials_checked :
    Mutates serve s (CheckedAt server ms serve s .fnUserUpdateCredentials)
      (onUserUpdateCredentials (.object ms)).program := by
  rw [onUserUpdateCredentials, withFields_updateCredentials]
  apply mutates_accepted
  rintro ⟨_, _, _⟩ hfields
  exact mutates_later replies_status ⟨_, _, _, hfields, rfl⟩

theorem onUserUpdateSettings_checked :
    Mutates serve s (CheckedAt server ms serve s .fnUserUpdateSettings)
      (onUserUpdateSettings server (.object ms)).program := by
  rw [onUserUpdateSettings, withFields_updateSettings]
  apply mutates_accepted
  rintro ⟨sessionId, targetLogin, coin, address, payoutThreshold, autoPayout, totp⟩ hfields
  dsimp only
  cases hcoin : server.userManager.coinIdxMap coin with
  | none => exact mutates_query (@query_status True _)
  | some coinIdx =>
    dsimp only
    cases hmoney : server.helpers.parseMoneyValue payoutThreshold
        (server.userManager.coinInfo.get coinIdx).rationalPartSize with
    | none => exact mutates_query (@query_status True _)
    | some minimalPayout =>
      dsimp only
      cases haddress : server.helpers.checkAddress (server.userManager.coinInfo.get coinIdx) address
          (server.userManager.coinInfo.get coinIdx).payoutAddressType with
      | false => exact mutates_query (@query_status True _)
      | true =>
        refine mutates_ask rfl ?_
        cases hx : (serve s (.validateSession sessionId targetLogin true)).1 with
        | none => exact mutates_query (@query_status True _)
        | some tokenInfo =>
          exact mutates_later replies_status ⟨_, _, ⟨sessionId, targetLogin, payoutThreshold,
            coinIdx, tokenInfo, hfields, hcoin, hmoney, haddress, hx, rfl⟩, rfl⟩

theorem onUserUpdateFeePlan_checked :
    Mutates serve s (CheckedAt server ms serve s .fnUserUpdateFeePlan)
      (onUserUpdateFeePlan server (.object ms)).program := by
  rw [onUserUpdateFeePlan, withFields_feePlan]
  apply mutates_accepted
  rintro ⟨sessionId, record⟩ hfields
  dsimp only
  split
  · exact mutates_query (@query_status True _)
  · rename_i hcoins
    refine mutates_later replies_status ⟨sessionId, record, hfields, ?_, rfl⟩
    intro fee hfee
    by_contra hnone
    exact hcoins (List.any_eq_true.mpr ⟨fee, hfee, by simpa using hnone⟩)

theorem onUserChangeFeePlan_checked :
    Mutates serve s (CheckedAt server ms serve s .fnUserChangeFeePlan)
      (onUserChangeFeePlan (.object ms)).program := by
  rw [onUserChangeFeePlan, withFields_changeFeePlan]
  apply mutates_accepted
  rintro ⟨_, _, _⟩ hfields
  exact mutates_later replies_status ⟨_, _, _, hfields, rfl⟩

theorem onUserActivate2faInitiate_checked :
    Mutates serve s (CheckedAt server ms serve s .fnUserActivate2faInitiate)
      (onUserActivate2faInitiate (.object ms)).program := by
  rw [onUserActivate2faInitiate, withFields_sessionTarget]
  apply mutates_accepted
  rintro ⟨_, _⟩ hfields
  exact mutates_later (fun _ => replies_object _) ⟨_, _, hfields, rfl⟩

theorem onUserDeactivate2faInitiate_checked :
    Mutates serve s (CheckedAt server ms serve s .fnUserDeactivate2faInitiate)
      (onUserDeactivate2faInitiate (.object ms)).program := by
  rw [onUserDeactivate2faInitiate, withFields_sessionTarget]
  apply mutates_accepted
  rintro ⟨_, _⟩ hfields
  exact mutates_later replies_status ⟨_, _, hfields, rfl⟩

theorem onBackendManualPayout_checked :
    Mutates serve s (CheckedAt server ms serve s .fnBackendManualPayout)
      (onBackendManualPayout server (.object ms)).program := by
  rw [onBackendManualPayout, withFields_sessionTargetCoin]
  apply mutates_accepted
  rintro ⟨sessionId, targetLogin, coin⟩ hfields
  refine mutates_ask rfl ?_
  cases hx : (serve s (.validateSession sessionId targetLogin true)).1 with
  | none => exact mutates_query (@query_status True _)
  | some login =>
    dsimp only
    cases hb : server.backend coin with
    | none => exact mutates_query (@query_status True _)
    | some backend =>
      exact mutates_later replies_status ⟨_, _, _, login, backend, hfields, hx, hb, rfl⟩

theorem onBackendUpdateProfitSwitchCoeff_checked :
    Mutates serve s (CheckedAt server ms serve s .fnBackendUpdateProfitSwitchCoeff)
      (onBackendUpdateProfitSwitchCoeff server (.object ms)).program := by
  rw [onBackendUpdateProfitSwitchCoeff, withFields_profitSwitchCoeff]
  apply mutates_accepted
  rintro ⟨sessionId, coin, coeff⟩ hfields
  refine mutates_ask rfl ?_
  cases hx : (serve s (.validateSession sessionId "" false)).1 with
  | none => exact mutates_query (@query_status True _)
  | some tokenInfo =>
    dsimp only
    by_cases hadmin : tokenInfo.login = "admin"
    · simp only [hadmin, ne_eq, not_true_eq_false, if_false]
      cases hb : server.backend coin with
      | none => exact mutates_query (@query_status True _)
      | some backend =>
        intro c hc _
        have hc : c = .setProfitSwitchCoeff backend.handle coeff := by simpa [program] using hc
        exact ⟨_, _, _, tokenInfo, backend, hfields, hx, hadmin, hb, hc⟩
    · simp only [hadmin, ne_eq, not_false_eq_true, if_true]
      exact mutates_query (@query_status True _)

/-- Whatever the endpoint, a mutating call carries what its checks were about. -/
theorem dispatch_checked (f : FunctionTy) :
    Mutates serve s (CheckedAt server ms serve s f) (dispatch server f (.object ms)).program := by
  cases f with
  | fnUserAction => exact onUserAction_checked server ms serve s
  | fnUserCreate => exact onUserCreate_checked server ms serve s
  | fnUserResendEmail => exact onUserResendEmail_checked server ms serve s
  | fnUserLogin => exact onUserLogin_checked server ms serve s
  | fnUserLogout => exact onUserLogout_checked server ms serve s
  | fnUserQueryMonitoringSession => exact onUserQueryMonitoringSession_checked server ms serve s
  | fnUserChangePasswordInitiate => exact onUserChangePasswordInitiate_checked server ms serve s
  | fnUserChangePasswordForce => exact onUserChangePasswordForce_checked server ms serve s
  | fnUserUpdateCredentials => exact onUserUpdateCredentials_checked server ms serve s
  | fnUserUpdateSettings => exact onUserUpdateSettings_checked server ms serve s
  | fnUserUpdateFeePlan => exact onUserUpdateFeePlan_checked server ms serve s
  | fnUserChangeFeePlan => exact onUserChangeFeePlan_checked server ms serve s
  | fnUserActivate2faInitiate => exact onUserActivate2faInitiate_checked server ms serve s
  | fnUserDeactivate2faInitiate => exact onUserDeactivate2faInitiate_checked server ms serve s
  | fnBackendManualPayout => exact onBackendManualPayout_checked server ms serve s
  | fnBackendUpdateProfitSwitchCoeff =>
    exact onBackendUpdateProfitSwitchCoeff_checked server ms serve s
  | fnUnknown | fnApi => exact mutates_query (@query_write True _)
  | fnUserChangeEmail => exact mutates_query (@onUserChangeEmail_query True (.object ms))
  | fnUserGetCredentials => exact mutates_query (@onUserGetCredentials_query True ms)
  | fnUserGetSettings => exact mutates_query (@onUserGetSettings_query True server ms)
  | fnUserEnumerateAll => exact mutates_query (@onUserEnumerateAll_query True server ms)
  | fnUserGetFeePlan => exact mutates_query (@onUserGetFeePlan_query True ms)
  | fnUserEnumerateFeePlan => exact mutates_query (@onUserEnumerateFeePlan_query True ms)
  | fnBackendQueryCoins =>
    exact mutates_query (@onBackendQueryCoins_query True server (.object ms))
  | fnBackendQueryUserBalance => exact mutates_query (onBackendQueryUserBalance_query server ms)
  | fnBackendQueryUserStats => exact mutates_query (@onBackendQueryUserStats_query True server ms)
  | fnBackendQueryUserStatsHistory =>
    exact mutates_query (@onBackendQueryUserStatsHistory_query True server ms)
  | fnBackendQueryWorkerStatsHistory =>
    exact mutates_query (@onBackendQueryWorkerStatsHistory_query True server ms)
  | fnBackendQueryFoundBlocks =>
    exact mutates_query (@onBackendQueryFoundBlocks_query True server ms)
  | fnBackendQueryPayouts => exact mutates_query (@onBackendQueryPayouts_query True server ms)
  | fnBackendQueryPoolBalance =>
    exact mutates_query (@onBackendQueryPoolBalance_query True (.object ms))
  | fnBackendQueryPoolStats => exact mutates_query (onBackendQueryPoolStats_query server ms)
  | fnBackendQueryPoolStatsHistory =>
    exact mutates_query (@onBackendQueryPoolStatsHistory_query True server ms)
  | fnBackendQueryProfitSwitchCoeff =>
    exact mutates_query (@onBackendQueryProfitSwitchCoeff_query True server ms)
  | fnBackendQueryPPLNSPayouts =>
    exact mutates_query (@onBackendQueryPPLNSPayouts_query True server ms)
  | fnBackendQueryPPLNSAcc => exact mutates_query (onBackendQueryPPLNSAcc_query server ms)
  | fnBackendPoolLuck => exact mutates_query (@onBackendPoolLuck_query True server ms)
  | fnInstanceEnumerateAll =>
    exact mutates_query (@onInstanceEnumerateAll_query True server (.object ms))
  | fnComplexMiningStatsGetInfo =>
    exact mutates_query (@onComplexMiningStatsGetInfo_query True ms)

/-- A request its handler answers with an error of its own makes no mutating call. Any
other makes at most one, before which nothing is written and nothing else mutates, and
the call carries exactly what was checked. -/
theorem rejected_changes_nothing (f : FunctionTy) :
    ((∃ status ∈ ownErrors, .wrote .handler (statusReply status) ∈
        (run serve (dispatch server f (.object ms)).program .handler s).1) →
      ∀ c ∈ calls (run serve (dispatch server f (.object ms)).program .handler s).1,
        mutates c = false) ∧
    (∀ c ∈ calls (run serve (dispatch server f (.object ms)).program .handler s).1,
      mutates c = true →
        Checked server ms (sessionsAt serve s) f c ∧
        ∃ before after,
          (run serve (dispatch server f (.object ms)).program .handler s).1 =
            before ++ .called c :: after ∧
          (∀ o m, .wrote o m ∉ before) ∧
          ∀ d ∈ calls before ++ calls after, mutates d = false) := by
  have hcommit := commitsLast_run serve (dispatch_orderly server ms f).commits s
  constructor
  · rintro ⟨status, hstatus, hwrote⟩
    exact hcommit.rejected ⟨_, ⟨status, hstatus, rfl⟩, hwrote⟩
  · intro c hc hm
    exact ⟨dispatch_checked server ms serve s f c hc hm, hcommit.last c hc hm⟩

end Handlers

end RejectedRequests
