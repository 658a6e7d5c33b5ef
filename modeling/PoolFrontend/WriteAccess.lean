import PoolFrontend.RejectedRequests

/-!
# Write access of a session

A session refused whenever write access is asked for should change nothing. Two
handlers ask for read access before they mutate.
-/
namespace WriteAccess

open CallbackProgram CallbackRuns CallbackTrace CallbackCommit
open Json Poolcore Server RequestFields UserHandlers BackendHandlers Router Endpoints
open RejectedRequests
open Handler (program)

/-- `validateSession` refuses the session for every target when write access is needed. -/
def ReadOnly (validate : Sessions) (sessionId : String) : Prop :=
  ∀ targetLogin, validate sessionId targetLogin true = none

/-- The session a request names. -/
def Names (ms : Members) (sessionId : String) : Prop :=
  string ms "id" = some sessionId ∧ sessionId ≠ ""

/-- A mutating call on behalf of a session. -/
def OnBehalf (validate : Sessions) (sessionId : String) : Call → Prop
  | .userCreate login _ =>
    ∃ tokenInfo, validate sessionId "" false = some tokenInfo ∧ login = tokenInfo.login
  | .updateSettings .. => True
  | .manualPayout .. => True
  | .setProfitSwitchCoeff .. => True
  | _ => False

theorem onBehalf_mutates {validate : Sessions} {sessionId : String} {c : Call}
    (h : OnBehalf validate sessionId c) : mutates c = true := by
  cases c <;> first | rfl | exact h.elim

variable {σ : Type} (serve : Environment Http σ) (s : σ) (server : PoolHttpServer)
  (f : FunctionTy) (ms : Members)

/-- No mutating call is made on behalf of a read-only session the request names. -/
def WriteAuthorized : Prop :=
  ∀ sessionId, Names ms sessionId → ReadOnly (sessionsAt serve s) sessionId →
    ∀ c ∈ calls (run serve (dispatch server f (.object ms)).program .handler s).1,
      ¬ OnBehalf (sessionsAt serve s) sessionId c

/-- An accepted `userCreate` by a read-only session, or an accepted
`backendUpdateProfitSwitchCoeff` by a read-only session of the administrator. -/
def ReadAccessSuffices : Prop :=
  ∃ sessionId, Names ms sessionId ∧ ReadOnly (sessionsAt serve s) sessionId ∧
    ∃ tokenInfo, sessionsAt serve s sessionId "" false = some tokenInfo ∧
      ((f = .fnUserCreate ∧ ∃ newCredentials,
          userCreateMembers ms = some (sessionId, newCredentials)) ∨
        (f = .fnBackendUpdateProfitSwitchCoeff ∧ tokenInfo.login = "admin" ∧
          ∃ coin coeff, profitSwitchCoeffMembers ms = some (sessionId, coin, coeff) ∧
            (server.backend coin).isSome = true))

theorem userCreate_names {sessionId : String} {newCredentials : Credentials}
    (h : userCreateMembers ms = some (sessionId, newCredentials)) :
    stringOr ms "id" "" = some sessionId := by
  obtain ⟨id, hid, h⟩ := Option.bind_eq_some_iff.mp h
  obtain ⟨asked, _, h⟩ := Option.bind_eq_some_iff.mp h
  cases h
  exact hid

theorem stringOr_of_string {sessionId : String} (h : string ms "id" = some sessionId) :
    stringOr ms "id" "" = some sessionId := by
  unfold string required at h
  unfold stringOr Json.optional
  cases hv : ms.lookup "id" with
  | none => simp [hv] at h
  | some v => simpa [hv] using h

theorem profitSwitchCoeff_names {sessionId coin : String} {coeff : Double}
    (h : profitSwitchCoeffMembers ms = some (sessionId, coin, coeff)) :
    string ms "id" = some sessionId := by
  obtain ⟨id, hid, h⟩ := Option.bind_eq_some_iff.mp h
  simp only [Option.bind_eq_bind, Option.bind_eq_some_iff, Option.pure_def, Option.some.injEq,
    Prod.mk.injEq] at h
  obtain ⟨_, _, _, _, rfl, _⟩ := h
  exact hid

/-- A call made on behalf of a read-only session is one of the two. -/
theorem suffices_of_onBehalf {sessionId : String} {c : Call} (hnames : Names ms sessionId)
    (hread : ReadOnly (sessionsAt serve s) sessionId)
    (hchecked : CheckedAt server ms serve s f c)
    (hbehalf : OnBehalf (sessionsAt serve s) sessionId c) :
    ReadAccessSuffices serve s server f ms := by
  cases f with
  | fnUserCreate =>
    obtain ⟨id, login, newCredentials, hfields, _, rfl⟩ := hchecked
    have hid : id = sessionId := by
      have h := (userCreate_names ms hfields).symm.trans (stringOr_of_string ms hnames.1)
      exact Option.some.inj h
    subst hid
    obtain ⟨tokenInfo, hsession, _⟩ := hbehalf
    exact ⟨id, hnames, hread, tokenInfo, hsession, Or.inl ⟨rfl, newCredentials, hfields⟩⟩
  | fnUserUpdateSettings =>
    obtain ⟨settings, totp, hsettings, rfl⟩ := hchecked
    obtain ⟨id, target, _, _, tokenInfo, hfields, _, _, _, hsession, _⟩ := hsettings
    have hid := Option.some.inj
      ((sessionTarget_id ms (updateSettings_session ms hfields)).symm.trans hnames.1)
    rw [hid, hread target] at hsession
    cases hsession
  | fnBackendManualPayout =>
    obtain ⟨id, target, coin, tokenInfo, backend, hfields, hsession, _, rfl⟩ := hchecked
    have hid := Option.some.inj
      ((sessionTarget_id ms (sessionTargetCoin_session ms hfields)).symm.trans hnames.1)
    rw [hid, hread target] at hsession
    cases hsession
  | fnBackendUpdateProfitSwitchCoeff =>
    obtain ⟨id, coin, coeff, tokenInfo, backend, hfields, hsession, hadmin, hb, rfl⟩ := hchecked
    have hid := Option.some.inj ((profitSwitchCoeff_names ms hfields).symm.trans hnames.1)
    subst hid
    exact ⟨id, hnames, hread, tokenInfo, hsession,
      Or.inr ⟨rfl, hadmin, coin, coeff, hfields, by rw [hb]; rfl⟩⟩
  | fnUserResendEmail | fnUserLogin | fnUserLogout | fnUserChangePasswordInitiate =>
    obtain ⟨_, _, rfl⟩ := hchecked
    exact hbehalf.elim
  | fnUserQueryMonitoringSession | fnUserActivate2faInitiate | fnUserDeactivate2faInitiate =>
    obtain ⟨_, _, _, rfl⟩ := hchecked
    exact hbehalf.elim
  | fnUserAction | fnUserChangePasswordForce | fnUserUpdateCredentials | fnUserUpdateFeePlan
  | fnUserChangeFeePlan =>
    obtain ⟨_, _, _, _, rfl⟩ := hchecked
    exact hbehalf.elim
  | _ => exact hchecked.elim

theorem calls_userCreate {sessionId : String} {newCredentials : Credentials}
    {tokenInfo : UserWithAccessRights} (hid : sessionId ≠ "")
    (hfields : userCreateMembers ms = some (sessionId, newCredentials))
    (hsession : sessionsAt serve s sessionId "" false = some tokenInfo) :
    .userCreate tokenInfo.login newCredentials ∈
      calls (run serve (onUserCreate (.object ms)).program .handler s).1 := by
  have hsession : (serve s (.validateSession sessionId "" false)).1 = some tokenInfo := hsession
  simp [onUserCreate, hfields, accepted, program, hid, hsession]

theorem calls_updateProfitSwitchCoeff {sessionId coin : String} {coeff : Double}
    {tokenInfo : UserWithAccessRights} {backend : PoolBackend}
    (hfields : profitSwitchCoeffMembers ms = some (sessionId, coin, coeff))
    (hsession : sessionsAt serve s sessionId "" false = some tokenInfo)
    (hadmin : tokenInfo.login = "admin") (hb : server.backend coin = some backend) :
    .setProfitSwitchCoeff backend.handle coeff ∈
      calls (run serve (onBackendUpdateProfitSwitchCoeff server (.object ms)).program
        .handler s).1 := by
  have hsession : (serve s (.validateSession sessionId "" false)).1 = some tokenInfo := hsession
  simp [onBackendUpdateProfitSwitchCoeff, hfields, accepted, program, hsession, hadmin, hb]

/-- Write access is asked for exactly outside the two handlers. -/
theorem write_authorized_iff :
    WriteAuthorized serve s server f ms ↔ ¬ ReadAccessSuffices serve s server f ms := by
  constructor
  · rintro h ⟨sessionId, hnames, hread, tokenInfo, hsession, ⟨rfl, newCredentials, hfields⟩ |
      ⟨rfl, hadmin, coin, coeff, hfields, hbackend⟩⟩
    · exact h sessionId hnames hread _
        (calls_userCreate serve s ms hnames.2 hfields hsession) ⟨tokenInfo, hsession, rfl⟩
    · obtain ⟨backend, hb⟩ := Option.isSome_iff_exists.mp hbackend
      exact h sessionId hnames hread _
        (calls_updateProfitSwitchCoeff serve s server ms hfields hsession hadmin hb) trivial
  · intro h sessionId hnames hread c hc hbehalf
    have hchecked := dispatch_checked server ms serve s f c hc (onBehalf_mutates hbehalf)
    exact h (suffices_of_onBehalf serve s server f ms hnames hread hchecked hbehalf)

/-- A core with a monitoring session of one miner. -/
def monitored : Environment Http Unit
  | _, .validateSession _ _ needWriteAccess =>
    (if needWriteAccess then none else some { login := "miner", isReadOnly := true }, ())
  | _, c => (emptyAnswer c, ())

/-- `userCreate` in the name of the monitoring session. -/
def createByMonitor : Members := [("id", .string "monitoring"), ("login", .string "new"),
  ("password", .string "secret"), ("email", .string "new@pool")]

theorem monitor_creates_user : ¬ ∀ (σ : Type) (serve : Environment Http σ) (s : σ)
    (server : PoolHttpServer) (f : FunctionTy) (ms : Members),
    WriteAuthorized serve s server f ms := by
  intro h
  have hcreate := calls_userCreate monitored () createByMonitor
    (show "monitoring" ≠ "" by decide) rfl rfl
  exact h Unit monitored () emptyServer .fnUserCreate createByMonitor "monitoring"
    ⟨rfl, by decide⟩ (fun _ => rfl) _ hcreate ⟨_, rfl, rfl⟩

end WriteAccess
