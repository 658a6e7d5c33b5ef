import PoolFrontend.RequestFields

/-!
# The user manager endpoints

The fields of a handler are read first, in one group; beside each group stands what
it reads of a JSON object.
-/
namespace UserHandlers

open CallbackProgram PartialState Json Poolcore Server RequestFields

variable (server : PoolHttpServer) (ms : Members)

/-- The pairs in their order. -/
def addUserFeeConfig (config : UserFeeConfig) : Value :=
  .array (config.map fun pair =>
    .object [("userId", .string pair.userId), ("percentage", .double pair.percentage)])

def addUserFeePlan (plan : UserFeePlanRecord) : Value :=
  .object [
    ("feePlanId", .string plan.feePlanId),
    ("default", addUserFeeConfig plan.default),
    ("coinSpecificFee", .array (plan.coinSpecificFee.map fun specificFee =>
      .object [
        ("coin", .string specificFee.coinName),
        ("config", addUserFeeConfig specificFee.config)]))]

/-- The body of the loop over the pairs of a fee configuration. -/
def jsonParseUserFeePair (pair : Value) : Parse UserFeePair := do
  let userId ← jsonParseString pair "userId" ""
  let percentage ← jsonParseNumber pair "percentage" (.finite 0)
  return { userId, percentage }

def jsonParseUserFeeConfig (value : Value) (fieldName : String) (config : UserFeeConfig) :
    Parse UserFeeConfig := do
  if !(← value.memberIs Value.isArray fieldName) then
    invalidate
    return config
  let pairs ← (← value.member fieldName).getArray
  parseObjects jsonParseUserFeePair pairs config

/-- The body of the loop over the coins of a fee plan. -/
def jsonParseCoinSpecificFee (value : Value) : Parse CoinSpecificFeeRecord := do
  let coinName ← jsonParseString value "coin" ""
  let config ← jsonParseUserFeeConfig value "config" []
  return { coinName, config }

/-- The fields of `onUserUpdateFeePlan`. -/
def jsonParseUserFeePlan (document : Value) : Parse (String × UserFeePlanRecord) := do
  let sessionId ← jsonParseString document "id" ""
  let feePlanId ← jsonParseString document "feePlanId" ""
  let default ← jsonParseUserFeeConfig document "default" []
  let mut coinSpecificFee := []
  if ← document.memberIs Value.isArray "coinSpecificFee" then
    let values ← (← document.member "coinSpecificFee").getArray
    coinSpecificFee ← parseObjects jsonParseCoinSpecificFee values []
  return (sessionId, { feePlanId, default, coinSpecificFee })

/-- The members of one pair, of a list of pairs, of one coin and of a whole plan. -/
def feePairMembers : Option UserFeePair := do
  let userId ← string ms "userId"
  let percentage ← number ms "percentage"
  return { userId, percentage }

def feeConfigMembers (fieldName : String) : Option UserFeeConfig := do
  let pairs ← required Getter.array ms fieldName
  pairs.mapM (ofObject feePairMembers)

def coinSpecificFeeMembers : Option CoinSpecificFeeRecord := do
  let coinName ← string ms "coin"
  let config ← feeConfigMembers ms "config"
  return { coinName, config }

/-- A member `coinSpecificFee` of another type is read as an absent one. -/
def coinSpecificFees : List Value :=
  match ms.lookup "coinSpecificFee" with
  | some (.array values) => values
  | _ => []

def feePlanMembers : Option (String × UserFeePlanRecord) := do
  let sessionId ← string ms "id"
  let feePlanId ← string ms "feePlanId"
  let default ← feeConfigMembers ms "default"
  let coinSpecificFee ← (coinSpecificFees ms).mapM (ofObject coinSpecificFeeMembers)
  return (sessionId, { feePlanId, default, coinSpecificFee })

theorem reads_feePair : Reads (jsonParseUserFeePair (.object ms)) (feePairMembers ms) :=
  reads_bind (reads_string ms _ _) fun _ => reads_bind (reads_number ms _ _) fun _ => reads_pure _

theorem reads_feeConfig (fieldName : String) :
    Reads (jsonParseUserFeeConfig (.object ms) fieldName []) (feeConfigMembers ms fieldName) := by
  simp only [jsonParseUserFeeConfig, Value.memberIs_object, Value.member_object, lift_some_bind]
  cases hv : ms.lookup fieldName with
  | none => exact reads_congr (reads_invalidate []) (by simp [feeConfigMembers, required, hv])
  | some v =>
    cases v with
    | array pairs =>
      refine reads_congr (reads_objects reads_feePair pairs []) ?_
      cases hp : pairs.mapM (ofObject feePairMembers) <;>
        simp [feeConfigMembers, required, hv, Getter.array, Value.getArray, hp]
    | _ =>
      exact reads_congr (reads_invalidate [])
        (by simp [feeConfigMembers, required, hv, Getter.array, Value.getArray])

theorem reads_coinSpecificFee :
    Reads (jsonParseCoinSpecificFee (.object ms)) (coinSpecificFeeMembers ms) :=
  reads_bind (reads_string ms _ _) fun _ => reads_bind (reads_feeConfig ms _) fun _ => reads_pure _

theorem reads_feePlan : Reads (jsonParseUserFeePlan (.object ms)) (feePlanMembers ms) := by
  refine reads_bind (reads_string ms _ _) fun _ => reads_bind (reads_string ms _ _) fun _ =>
    reads_bind (reads_feeConfig ms _) fun default => ?_
  simp only [Value.memberIs_object, Value.member_object, lift_some_bind]
  cases hv : ms.lookup "coinSpecificFee" with
  | none => exact reads_congr (reads_pure _) (by simp [coinSpecificFees, hv])
  | some v =>
    cases v with
    | array values =>
      simp only [Option.any_some, Value.isArray, if_true, lift_some_bind, Value.getArray]
      refine reads_congr (reads_bind (reads_objects reads_coinSpecificFee values []) fun _ =>
        reads_pure _) ?_
      cases hp : values.mapM (ofObject coinSpecificFeeMembers) <;>
        simp [coinSpecificFees, hv, hp]
    | _ => exact reads_congr (reads_pure _) (by simp [coinSpecificFees, hv])

@[simp] theorem withFields_feePlan (body : String × UserFeePlanRecord → Handler Unit) :
    withFields (jsonParseUserFeePlan (.object ms)) body = accepted (feePlanMembers ms) body :=
  withFields_reads (reads_feePlan ms) body

/-- The fields of `onUserAction`. -/
def userActionFields (document : Value) : Parse (String × String × String) := do
  let actionId ← jsonParseString document "actionId" ""
  let newPassword ← jsonParseStringOr document "newPassword" "" ""
  let totp ← jsonParseStringOr document "totp" "" ""
  return (actionId, newPassword, totp)

def userActionMembers : Option (String × String × String) := do
  let actionId ← string ms "actionId"
  let newPassword ← stringOr ms "newPassword" ""
  let totp ← stringOr ms "totp" ""
  return (actionId, newPassword, totp)

theorem reads_userAction : Reads (userActionFields (.object ms)) (userActionMembers ms) :=
  reads_bind (reads_string ms _ _) fun _ => reads_bind (reads_stringOr ms _ _ _) fun _ =>
  reads_bind (reads_stringOr ms _ _ _) fun _ => reads_pure _

@[simp] theorem withFields_userAction (body : String × String × String → Handler Unit) :
    withFields (userActionFields (.object ms)) body = accepted (userActionMembers ms) body :=
  withFields_reads (reads_userAction ms) body

def onUserAction (document : Value) : Handler Unit :=
  withFields (userActionFields document) fun (actionId, newPassword, totp) =>
  answerLater (.userAction actionId newPassword totp) fun status =>
    replyWithStatus status

/-- The fields of `onUserCreate`; the session is optional. -/
def userCreateFields (document : Value) : Parse (String × Credentials) := do
  let sessionId ← jsonParseStringOr document "id" "" ""
  let credentials ← parseUserCredentials document {}
  return (sessionId, credentials)

def userCreateMembers : Option (String × Credentials) := do
  let sessionId ← stringOr ms "id" ""
  let credentials ← credentials ms
  return (sessionId, credentials)

theorem reads_userCreate : Reads (userCreateFields (.object ms)) (userCreateMembers ms) :=
  reads_bind (reads_stringOr ms _ _ _) fun _ => reads_bind (reads_credentials ms) fun _ =>
  reads_pure _

@[simp] theorem withFields_userCreate (body : String × Credentials → Handler Unit) :
    withFields (userCreateFields (.object ms)) body = accepted (userCreateMembers ms) body :=
  withFields_reads (reads_userCreate ms) body

/-- Without a session a user can be created as well. -/
def onUserCreate (document : Value) : Handler Unit :=
  withFields (userCreateFields document) fun (sessionId, credentials) => do
  let mut tokenInfo : UserWithAccessRights := {}
  if sessionId ≠ "" then
    match ← ask (.validateSession sessionId "" false) with
    | some info => tokenInfo := info
    | none =>
      replyWithStatus "unknown_id"
      return
  answerLater (.userCreate tokenInfo.login credentials) fun status =>
    replyWithStatus status

def onUserResendEmail (document : Value) : Handler Unit :=
  withFields (parseUserCredentials document {}) fun credentials =>
  answerLater (.userResendEmail credentials) fun status =>
    replyWithStatus status

/-- The status of the core is sent together with the session. -/
def onUserLogin (document : Value) : Handler Unit :=
  withFields (parseUserCredentials document {}) fun credentials =>
  answerLater (.userLogin credentials) fun (sessionId, status, isReadOnly) =>
    replyObject [
      ("status", .string status),
      ("sessionid", .string sessionId),
      ("isReadOnly", .bool isReadOnly)]

def onUserLogout (document : Value) : Handler Unit :=
  withFields (jsonParseString document "id" "") fun sessionId =>
  answerLater (.userLogout sessionId) fun status =>
    replyWithStatus status

def onUserQueryMonitoringSession (document : Value) : Handler Unit :=
  withFields (sessionTarget document "id") fun (sessionId, targetLogin) =>
  answerLater (.userQueryMonitoringSession sessionId targetLogin) fun (sessionId, status) =>
    replyObject [("status", .string status), ("sessionid", .string sessionId)]

/-- Not implemented in the source either. -/
def onUserChangeEmail (_document : Value) : Handler Unit :=
  aioWrite (.reply200 (.text "\x7b\"error\": \"not implemented\"\x7d\n"))

def onUserChangePasswordInitiate (document : Value) : Handler Unit :=
  withFields (jsonParseString document "login" "") fun login =>
  answerLater (.userChangePasswordInitiate login) fun status =>
    replyWithStatus status

/-- The fields of `onUserChangePasswordForce`. -/
def changePasswordForceFields (document : Value) : Parse (String × String × String) := do
  let id ← jsonParseString document "id" ""
  let login ← jsonParseString document "login" ""
  let newPassword ← jsonParseString document "newPassword" ""
  return (id, login, newPassword)

def changePasswordForceMembers : Option (String × String × String) := do
  let id ← string ms "id"
  let login ← string ms "login"
  let newPassword ← string ms "newPassword"
  return (id, login, newPassword)

theorem reads_changePasswordForce :
    Reads (changePasswordForceFields (.object ms)) (changePasswordForceMembers ms) :=
  reads_bind (reads_string ms _ _) fun _ => reads_bind (reads_string ms _ _) fun _ =>
  reads_bind (reads_string ms _ _) fun _ => reads_pure _

@[simp] theorem withFields_changePasswordForce (body : String × String × String → Handler Unit) :
    withFields (changePasswordForceFields (.object ms)) body =
      accepted (changePasswordForceMembers ms) body :=
  withFields_reads (reads_changePasswordForce ms) body

def onUserChangePasswordForce (document : Value) : Handler Unit :=
  withFields (changePasswordForceFields document) fun (id, login, newPassword) =>
  answerLater (.userChangePasswordForce id login newPassword) fun status =>
    replyWithStatus status

/-- The answer of `onUserGetCredentials`; the session or the user may be read only. -/
def credentialsReply (tokenInfo : UserWithAccessRights) (credentials : Credentials) : Members := [
  ("status", .string "ok"),
  ("login", .string tokenInfo.login),
  ("name", .string credentials.name),
  ("email", .string credentials.eMail),
  ("registrationDate", .int credentials.registrationDate),
  ("isActive", .bool credentials.isActive),
  ("isReadOnly", .bool (tokenInfo.isReadOnly || credentials.isReadOnly)),
  ("has2fa", .bool credentials.hasTwoFactor)]

def onUserGetCredentials (document : Value) : Handler Unit :=
  withFields (sessionTarget document "id") fun (sessionId, targetLogin) => do
  match ← ask (.validateSession sessionId targetLogin false) with
  | some tokenInfo =>
    match ← ask (.getUserCredentials tokenInfo.login) with
    | some credentials => replyObject (credentialsReply tokenInfo credentials)
    | none => replyWithStatus "unknown_id"
  | none => replyWithStatus "unknown_id"

/-- One element of the answer of `onUserGetSettings`. -/
def coinSettings (coinInfo : CoinInfo) : Option UserSettingsRecord → Value
  | some settings => .object [
      ("name", .string coinInfo.name),
      ("address", .string settings.address),
      ("payoutThreshold",
        .string (server.helpers.formatMoney settings.minimalPayout coinInfo.rationalPartSize)),
      ("autoPayoutEnabled", .bool settings.autoPayout)]
  | none => .object [
      ("name", .string coinInfo.name),
      ("address", .null),
      ("payoutThreshold", .null),
      ("autoPayoutEnabled", .bool false)]

/-- The loop over the coins of the user manager. -/
def allCoinSettings (login : String) : List CoinInfo → Handler (List Value)
  | [] => return []
  | coinInfo :: rest => do
    let settings ← ask (.getUserCoinSettings login coinInfo.name)
    let coins ← allCoinSettings login rest
    return coinSettings server coinInfo settings :: coins

/-- The coins of the user manager, one question for each. -/
def onUserGetSettings (document : Value) : Handler Unit :=
  withFields (sessionTarget document "id") fun (sessionId, targetLogin) => do
  match ← ask (.validateSession sessionId targetLogin false) with
  | some tokenInfo =>
    let coins ← allCoinSettings server tokenInfo.login server.userManager.coinInfo
    replyObject [("status", .string "ok"), ("coins", .array coins)]
  | none => replyWithStatus "unknown_id"

/-- The fields of `onUserUpdateCredentials`. -/
def updateCredentialsFields (document : Value) : Parse (String × String × Credentials) := do
  let sessionId ← jsonParseString document "id" ""
  let targetLogin ← jsonParseStringOr document "targetLogin" "" ""
  let credentials ← parseUserCredentials document {}
  return (sessionId, targetLogin, credentials)

def updateCredentialsMembers : Option (String × String × Credentials) := do
  let sessionId ← string ms "id"
  let targetLogin ← stringOr ms "targetLogin" ""
  let credentials ← credentials ms
  return (sessionId, targetLogin, credentials)

theorem reads_updateCredentials :
    Reads (updateCredentialsFields (.object ms)) (updateCredentialsMembers ms) :=
  reads_bind (reads_string ms _ _) fun _ => reads_bind (reads_stringOr ms _ _ _) fun _ =>
  reads_bind (reads_credentials ms) fun _ => reads_pure _

@[simp] theorem withFields_updateCredentials (body : String × String × Credentials → Handler Unit) :
    withFields (updateCredentialsFields (.object ms)) body =
      accepted (updateCredentialsMembers ms) body :=
  withFields_reads (reads_updateCredentials ms) body

def onUserUpdateCredentials (document : Value) : Handler Unit :=
  withFields (updateCredentialsFields document) fun (sessionId, targetLogin, credentials) =>
  answerLater (.updateCredentials sessionId targetLogin credentials) fun status =>
    replyWithStatus status

/-- The fields of `onUserUpdateSettings`. -/
def updateSettingsFields (document : Value) :
    Parse (String × String × String × String × String × Bool × String) := do
  let sessionId ← jsonParseString document "id" ""
  let targetLogin ← jsonParseStringOr document "targetLogin" "" ""
  let coin ← jsonParseString document "coin" ""
  let address ← jsonParseString document "address" ""
  let payoutThreshold ← jsonParseString document "payoutThreshold" ""
  let autoPayout ← jsonParseBoolean document "autoPayoutEnabled" false
  let totp ← jsonParseStringOr document "totp" "" ""
  return (sessionId, targetLogin, coin, address, payoutThreshold, autoPayout, totp)

def updateSettingsMembers :
    Option (String × String × String × String × String × Bool × String) := do
  let sessionId ← string ms "id"
  let targetLogin ← stringOr ms "targetLogin" ""
  let coin ← string ms "coin"
  let address ← string ms "address"
  let payoutThreshold ← string ms "payoutThreshold"
  let autoPayout ← boolean ms "autoPayoutEnabled"
  let totp ← stringOr ms "totp" ""
  return (sessionId, targetLogin, coin, address, payoutThreshold, autoPayout, totp)

theorem reads_updateSettings :
    Reads (updateSettingsFields (.object ms)) (updateSettingsMembers ms) :=
  reads_bind (reads_string ms _ _) fun _ => reads_bind (reads_stringOr ms _ _ _) fun _ =>
  reads_bind (reads_string ms _ _) fun _ => reads_bind (reads_string ms _ _) fun _ =>
  reads_bind (reads_string ms _ _) fun _ => reads_bind (reads_boolean ms _ _) fun _ =>
  reads_bind (reads_stringOr ms _ _ _) fun _ => reads_pure _

@[simp] theorem withFields_updateSettings
    (body : String × String × String × String × String × Bool × String → Handler Unit) :
    withFields (updateSettingsFields (.object ms)) body =
      accepted (updateSettingsMembers ms) body :=
  withFields_reads (reads_updateSettings ms) body

theorem updateSettings_session {sessionId targetLogin : String}
    {rest : String × String × String × Bool × String}
    (h : updateSettingsMembers ms = some (sessionId, targetLogin, rest)) :
    sessionTargetMembers ms "id" = some (sessionId, targetLogin) := by
  obtain ⟨_, _, hsession, h⟩ := session_of_bind ms h
  simp only [Option.bind_eq_bind, Option.bind_eq_some_iff, Option.pure_def, Option.some.injEq,
    Prod.mk.injEq] at h
  obtain ⟨_, _, _, _, _, _, _, _, _, _, rfl, rfl, _⟩ := h
  exact hsession

/-- The session is the last to be checked. -/
def onUserUpdateSettings (document : Value) : Handler Unit :=
  withFields (updateSettingsFields document)
    fun (sessionId, targetLogin, coin, address, payoutThreshold, autoPayout, totp) => do
  let some coinIdx := server.userManager.coinIdxMap coin | replyWithStatus "invalid_coin"
  let coinInfo := server.userManager.coinInfo.get coinIdx
  let some minimalPayout := server.helpers.parseMoneyValue payoutThreshold coinInfo.rationalPartSize
    | replyWithStatus "request_format_error"
  if !server.helpers.checkAddress coinInfo address coinInfo.payoutAddressType then
    replyWithStatus "invalid_address"
    return
  let some tokenInfo ← ask (.validateSession sessionId targetLogin true)
    | replyWithStatus "unknown_id"
  let settings : UserSettingsRecord :=
    { login := tokenInfo.login, coin, address, minimalPayout, autoPayout }
  answerLater (.updateSettings settings totp) fun status =>
    replyWithStatus status

/-- The columns `onUserEnumerateAll` sorts by. -/
def usersColumn : String → Option EColumns
  | "login" => some .login
  | "workersNum" => some .workersNum
  | "averagePower" => some .averagePower
  | "sharesPerSecond" => some .sharesPerSecond
  | "lastShareTime" => some .lastShareTime
  | _ => none

/-- The credentials of a user and the statistics of one coin. -/
def userObject (user : CredentialsWithStatistic) : Value := .object [
  ("login", .string user.credentials.login),
  ("name", .string user.credentials.name),
  ("email", .string user.credentials.eMail),
  ("registrationDate", .int user.credentials.registrationDate),
  ("isActive", .bool user.credentials.isActive),
  ("isReadOnly", .bool user.credentials.isReadOnly),
  ("feePlanId", .string user.credentials.feePlan),
  ("workers", .int user.workersNum),
  ("shareRate", .double user.sharesPerSecond),
  ("power", .int user.averagePower),
  ("lastShareTime", .int user.lastShareTime)]

/-- The fields of `onUserEnumerateAll`. -/
def enumerateAllFields (document : Value) :
    Parse (String × String × UInt64 × UInt64 × String × Option Bool) := do
  let sessionId ← jsonParseString document "id" ""
  let coin ← jsonParseStringOr document "coin" "" "sha256"
  let offset ← jsonParseUInt64Or document "offset" 0 0
  let size ← jsonParseUInt64Or document "size" 0 100
  let sortBy ← jsonParseStringOr document "sortBy" "" "averagePower"
  let sortDescending ← jsonParseUnsetBooleanOr document "sortDescending" none true
  return (sessionId, coin, offset, size, sortBy, sortDescending)

def enumerateAllMembers : Option (String × String × UInt64 × UInt64 × String × Bool) := do
  let sessionId ← string ms "id"
  let coin ← stringOr ms "coin" "sha256"
  let offset ← uint64Or ms "offset" 0
  let size ← uint64Or ms "size" 100
  let sortBy ← stringOr ms "sortBy" "averagePower"
  let sortDescending ← booleanOr ms "sortDescending" true
  return (sessionId, coin, offset, size, sortBy, sortDescending)

theorem reads_enumerateAll :
    Reads (enumerateAllFields (.object ms))
      ((enumerateAllMembers ms).map fun (a, b, c, d, e, f) => (a, b, c, d, e, some f)) := by
  refine reads_congr (reads_bind (reads_string ms _ _) fun _ =>
    reads_bind (reads_stringOr ms _ _ _) fun _ => reads_bind (reads_uint64Or ms _ _ _) fun _ =>
    reads_bind (reads_uint64Or ms _ _ _) fun _ => reads_bind (reads_stringOr ms _ _ _) fun _ =>
    reads_bind (reads_unsetBooleanOr ms _ _ _) fun _ => reads_pure _) ?_
  simp [enumerateAllMembers, Option.map_bind, Option.bind_map]

@[simp] theorem withFields_enumerateAll
    (body : String × String × UInt64 × UInt64 × String × Option Bool → Handler Unit) :
    withFields (enumerateAllFields (.object ms)) body =
      accepted (enumerateAllMembers ms) fun (a, b, c, d, e, f) => body (a, b, c, d, e, some f) := by
  rw [withFields_reads (reads_enumerateAll ms) body, accepted_map]

def onUserEnumerateAll (document : Value) : Handler Unit :=
  withFields (enumerateAllFields document)
    fun (sessionId, coin, offset, size, sortBy, sortDescending) => do
  let some column := usersColumn sortBy | replyWithStatus "unknown_column_name"
  let some statistic := server.statisticDb coin | replyWithStatus "invalid_coin"
  objectIncrementReference
  let sortDescending ← require sortDescending
  issue (.enumerateUsers sessionId) fun (status, allUsers) =>
    issue (.queryAllusersStats statistic.handle allUsers offset size column sortDescending)
      fun result => do
        replyObject [("status", .string status), ("users", .array (result.map userObject))]
        objectDecrementReference

/-- The core checks the session itself. -/
def onUserUpdateFeePlan (document : Value) : Handler Unit :=
  withFields (jsonParseUserFeePlan document) fun (sessionId, record) =>
  if record.coinSpecificFee.any fun specificFee => (server.backend specificFee.coinName).isNone then
    replyWithStatus "invalid_coin"
  else
    answerLater (.updateFeePlan sessionId record) fun status =>
      replyWithStatus status

def onUserEnumerateFeePlan (document : Value) : Handler Unit :=
  withFields (jsonParseString document "id" "") fun sessionId => do
  match ← ask (.enumerateFeePlan sessionId) with
  | .ok result =>
    replyObject [("status", .string "ok"), ("plans", .array (result.map addUserFeePlan))]
  | .error status => replyWithStatus status

/-- The fields of `onUserGetFeePlan`. -/
def getFeePlanFields (document : Value) : Parse (String × String) := do
  let sessionId ← jsonParseString document "id" ""
  let feePlanId ← jsonParseString document "feePlanId" ""
  return (sessionId, feePlanId)

def getFeePlanMembers : Option (String × String) := do
  let sessionId ← string ms "id"
  let feePlanId ← string ms "feePlanId"
  return (sessionId, feePlanId)

theorem reads_getFeePlan : Reads (getFeePlanFields (.object ms)) (getFeePlanMembers ms) :=
  reads_bind (reads_string ms _ _) fun _ => reads_bind (reads_string ms _ _) fun _ =>
  reads_pure _

@[simp] theorem withFields_getFeePlan (body : String × String → Handler Unit) :
    withFields (getFeePlanFields (.object ms)) body = accepted (getFeePlanMembers ms) body :=
  withFields_reads (reads_getFeePlan ms) body

def onUserGetFeePlan (document : Value) : Handler Unit :=
  withFields (getFeePlanFields document) fun (sessionId, feePlanId) => do
  match ← ask (.getFeePlan sessionId feePlanId) with
  | .ok result => replyObject [("status", .string "ok"), ("plan", addUserFeePlan result)]
  | .error status => replyWithStatus status

/-- The fields of `onUserChangeFeePlan`; the target is required here. -/
def changeFeePlanFields (document : Value) : Parse (String × String × String) := do
  let sessionId ← jsonParseString document "id" ""
  let targetLogin ← jsonParseString document "targetLogin" ""
  let feePlanId ← jsonParseString document "feePlanId" ""
  return (sessionId, targetLogin, feePlanId)

def changeFeePlanMembers : Option (String × String × String) := do
  let sessionId ← string ms "id"
  let targetLogin ← string ms "targetLogin"
  let feePlanId ← string ms "feePlanId"
  return (sessionId, targetLogin, feePlanId)

theorem reads_changeFeePlan : Reads (changeFeePlanFields (.object ms)) (changeFeePlanMembers ms) :=
  reads_bind (reads_string ms _ _) fun _ => reads_bind (reads_string ms _ _) fun _ =>
  reads_bind (reads_string ms _ _) fun _ => reads_pure _

@[simp] theorem withFields_changeFeePlan (body : String × String × String → Handler Unit) :
    withFields (changeFeePlanFields (.object ms)) body = accepted (changeFeePlanMembers ms) body :=
  withFields_reads (reads_changeFeePlan ms) body

def onUserChangeFeePlan (document : Value) : Handler Unit :=
  withFields (changeFeePlanFields document) fun (sessionId, targetLogin, feePlanId) =>
  answerLater (.changeFeePlan sessionId targetLogin feePlanId) fun status =>
    replyWithStatus status

/-- This endpoint and the next name the session `sessionId`, not `id`. -/
def onUserActivate2faInitiate (document : Value) : Handler Unit :=
  withFields (sessionTarget document "sessionId") fun (sessionId, targetLogin) =>
  answerLater (.activate2faInitiate sessionId targetLogin) fun (status, key) =>
    replyObject [("status", .string status), ("key", .string key)]

def onUserDeactivate2faInitiate (document : Value) : Handler Unit :=
  withFields (sessionTarget document "sessionId") fun (sessionId, targetLogin) =>
  answerLater (.deactivate2faInitiate sessionId targetLogin) fun status =>
    replyWithStatus status

end UserHandlers
