import PoolFrontend.CallbackMessages
import PoolFrontend.Endpoints
import PoolFrontend.JsonSchema

/-!
# The replies of each function

The forms a reply of a function can have: the failures it names itself, and its data under the
status `ok`. Where the core names the status, any text can stand there, and four functions send
their data with whatever it is.
-/
namespace ReplyForms

open CallbackProgram CallbackMessages Json JsonSchema Poolcore
open Server UserHandlers BackendHandlers Router

/-- A JSON object, one text, a body that comes from the core, or the page that is not found. -/
inductive Form where
  | object : Fields → Form
  | text : String → Form
  | raw : Form
  | notFound : Form

def Form.admits : Form → Reply → Bool
  | .object fields, .reply200 (.json value) => (Schema.object fields).accepts value
  | .text expected, .reply200 (.text s) => s = expected
  | .raw, .reply200 (.raw _) => true
  | .notFound, .reply404 => true
  | _, _ => false

/-- A status of the front end itself. -/
def failed (status : String) : Form := .object [("status", .literal status)]

/-- A status that may come from the core. -/
def reported : Form := .object [("status", .string)]

/-- Data under the status `ok`. -/
def succeeded (fields : Fields) : Form := .object (("status", .literal "ok") :: fields)

def feeConfigSchema : Schema := .array (.object [("userId", .string), ("percentage", .double)])

def feePlanSchema : Schema := .object [
  ("feePlanId", .string),
  ("default", feeConfigSchema),
  ("coinSpecificFee", .array (.object [("coin", .string), ("config", feeConfigSchema)]))]

/-- A user who has no settings for a coin has `null` in two places. -/
def coinSettingsSchema : Schema := .object [
  ("name", .string),
  ("address", .either .string .null),
  ("payoutThreshold", .either .string .null),
  ("autoPayoutEnabled", .bool)]

def userSchema : Schema := .object [
  ("login", .string), ("name", .string), ("email", .string), ("registrationDate", .int),
  ("isActive", .bool), ("isReadOnly", .bool), ("feePlanId", .string), ("workers", .int),
  ("shareRate", .double), ("power", .int), ("lastShareTime", .int)]

def credentialsFields : Fields := [
  ("login", .string), ("name", .string), ("email", .string), ("registrationDate", .int),
  ("isActive", .bool), ("isReadOnly", .bool), ("has2fa", .bool)]

def balanceSchema : Schema := .object [
  ("coin", .string), ("balance", .string), ("requested", .string), ("paid", .string),
  ("queued", .string)]

def workerStatsSchema : Schema := .object [
  ("name", .string), ("shareRate", .double), ("shareWork", .double), ("power", .int),
  ("lastShareTime", .int)]

def userStatsFields : Fields := [
  ("powerUnit", .string), ("powerMultLog10", .int), ("currentTime", .int),
  ("total", .object [
    ("clients", .int), ("workers", .int), ("shareRate", .double), ("shareWork", .double),
    ("power", .int), ("lastShareTime", .int)]),
  ("workers", .array workerStatsSchema)]

/-- The three history functions answer alike. -/
def historyFields : Fields := [
  ("powerUnit", .string), ("powerMultLog10", .int), ("currentTime", .int),
  ("stats", .array (.object [
    ("name", .string), ("time", .int), ("shareRate", .double), ("shareWork", .double),
    ("power", .int)]))]

def coinSchema : Schema := .object [
  ("name", .string), ("fullName", .string), ("algorithm", .string), ("minimalPayout", .string),
  ("totalFee", .finite)]

def blockSchema : Schema := .object [
  ("height", .int), ("hash", .string), ("time", .int), ("confirmations", .int),
  ("generatedCoins", .string), ("foundBy", .string)]

def payoutSchema : Schema := .object [
  ("time", .int), ("txid", .string), ("value", .string), ("status", .int)]

/-- The reply about one coin has the time of the last share besides. -/
def poolStatsFields : Fields := [
  ("coin", .string), ("powerUnit", .string), ("powerMultLog10", .int), ("clients", .int),
  ("workers", .int), ("shareRate", .double), ("shareWork", .double), ("power", .int)]

/-- The rates are the only numbers of the core that are checked before they are sent. -/
def pplnsPayoutSchema : Schema := .object [
  ("startTime", .int), ("endTime", .int), ("hash", .string), ("height", .int),
  ("value", .string), ("coinBtcRate", .finite), ("btcUsdRate", .finite)]

def pplnsAccSchema : Schema := .object [
  ("timeLabel", .int), ("value", .string), ("valueBTC", .string), ("valueUSD", .finite),
  ("avghashrate", .int)]

def profitSwitchSchema : Schema := .object [("name", .string), ("profitSwitchCoeff", .double)]

def instanceFields : Fields := [
  ("protocol", .string), ("type", .string), ("port", .int), ("backends", .array .string)]

/-- An instance of the protocol `stratum` has its share difficulty. -/
def instanceSchema : Schema :=
  .either (.object instanceFields) (.object (instanceFields ++ [("shareDiff", .double)]))

/-- A text that is no object with a status. -/
def notImplemented : Form := .text "\x7b\"error\": \"not implemented\"\x7d\n"

def badFormat : Form := failed "json_format_error"

def unknownId : Form := failed "unknown_id"

def invalidCoin : Form := failed "invalid_coin"

/-- What the handlers and their callbacks write, function by function. -/
def replyForms : FunctionTy → List Form
  | .fnUserAction | .fnUserCreate | .fnUserResendEmail | .fnUserLogout => [reported]
  | .fnUserChangePasswordInitiate | .fnUserChangePasswordForce => [reported]
  | .fnUserUpdateCredentials | .fnUserUpdateSettings => [reported]
  | .fnUserUpdateFeePlan | .fnUserChangeFeePlan => [reported]
  | .fnUserDeactivate2faInitiate | .fnBackendManualPayout => [reported]
  | .fnUserLogin => [badFormat,
      .object [("status", .string), ("sessionid", .string), ("isReadOnly", .bool)]]
  | .fnUserQueryMonitoringSession => [badFormat,
      .object [("status", .string), ("sessionid", .string)]]
  | .fnUserChangeEmail | .fnBackendQueryPoolBalance => [notImplemented]
  | .fnUserGetCredentials => [badFormat, unknownId, succeeded credentialsFields]
  | .fnUserGetSettings => [badFormat, unknownId, succeeded [("coins", .array coinSettingsSchema)]]
  | .fnUserEnumerateAll => [badFormat, failed "unknown_column_name", invalidCoin,
      .object [("status", .string), ("users", .array userSchema)]]
  | .fnUserEnumerateFeePlan => [reported, succeeded [("plans", .array feePlanSchema)]]
  | .fnUserGetFeePlan => [reported, succeeded [("plan", feePlanSchema)]]
  | .fnUserActivate2faInitiate => [badFormat, .object [("status", .string), ("key", .string)]]
  | .fnBackendQueryUserBalance => [badFormat, unknownId, invalidCoin,
      succeeded [("balances", .array balanceSchema)]]
  | .fnBackendQueryUserStats => [badFormat, failed "unknown_column_name", unknownId, invalidCoin,
      succeeded userStatsFields]
  | .fnBackendQueryUserStatsHistory | .fnBackendQueryWorkerStatsHistory =>
      [badFormat, unknownId, invalidCoin, succeeded historyFields]
  | .fnBackendQueryCoins => [succeeded [("coins", .array coinSchema)]]
  | .fnBackendQueryFoundBlocks => [badFormat, invalidCoin,
      succeeded [("blocks", .array blockSchema)]]
  | .fnBackendQueryPayouts => [badFormat, unknownId, invalidCoin,
      succeeded [("payouts", .array payoutSchema)]]
  | .fnBackendQueryPoolStats => [badFormat, invalidCoin,
      succeeded [("currentTime", .int),
        ("stats", .array (.object (poolStatsFields ++ [("lastShareTime", .int)])))],
      succeeded [("stats", .array (.object poolStatsFields))]]
  | .fnBackendQueryPoolStatsHistory => [badFormat, invalidCoin, succeeded historyFields]
  | .fnBackendQueryProfitSwitchCoeff => [badFormat, unknownId,
      succeeded [("coins", .array profitSwitchSchema)]]
  | .fnBackendQueryPPLNSPayouts => [badFormat, unknownId, invalidCoin,
      succeeded [("payouts", .array pplnsPayoutSchema)]]
  | .fnBackendQueryPPLNSAcc => [badFormat, unknownId, invalidCoin, failed "invalid_interval",
      succeeded [("payouts", .array pplnsAccSchema)]]
  | .fnBackendUpdateProfitSwitchCoeff => [badFormat, unknownId, invalidCoin, succeeded []]
  | .fnBackendPoolLuck => [badFormat, invalidCoin, succeeded [("luck", .array .double)]]
  | .fnInstanceEnumerateAll => [succeeded [("instances", .array instanceSchema)]]
  | .fnComplexMiningStatsGetInfo => [badFormat, unknownId, .raw]
  | .fnUnknown | .fnApi => [.notFound]

/-- The reply has one of the forms. -/
def Admitted (forms : List Form) (reply : Reply) : Prop := ∃ form ∈ forms, form.admits reply

section Rules

variable {forms : List Form} {status : String} {fields : Fields} {ms : Members}

theorem admitted_object (fields : Fields) (hform : .object fields ∈ forms)
    (h : acceptsMembers fields ms = true) : Admitted forms (.reply200 (.json (.object ms))) :=
  ⟨_, hform, by simpa [Form.admits] using h⟩

/-- A reply of a status only. -/
theorem admitted_failed (h : failed status ∈ forms) : Admitted forms (statusReply status) :=
  admitted_object _ h (by simp)

theorem admitted_reported (h : reported ∈ forms) : Admitted forms (statusReply status) :=
  admitted_object _ h (by simp)

/-- The rules for the statements that write; each names the form it has to find in the table. -/
theorem sends_object (fields : Fields) (hform : .object fields ∈ forms)
    (h : acceptsMembers fields ms = true) : Sends (Admitted forms) (replyObject ms) :=
  sends_write (admitted_object fields hform h)

theorem sends_failed (h : failed status ∈ forms) :
    Sends (Admitted forms) (replyWithStatus status) :=
  sends_write (admitted_failed h)

theorem sends_reported (h : reported ∈ forms) :
    Sends (Admitted forms) (replyWithStatus status) :=
  sends_write (admitted_reported h)

theorem sends_succeeded (fields : Fields) (hform : succeeded fields ∈ forms)
    (h : acceptsMembers fields ms = true) :
    Sends (Admitted forms) (replyObject (("status", .string "ok") :: ms)) :=
  sends_object _ hform (by simpa using h)

theorem sends_list {name : String} {values : List Value} (item : Schema)
    (hform : succeeded [(name, .array item)] ∈ forms)
    (h : ∀ value ∈ values, item.accepts value = true) :
    Sends (Admitted forms) (replyList name values) :=
  sends_succeeded _ hform (by simpa using h)

variable {P : Reply → Prop} {α : Type}

/-- A group of fields that cannot be read is answered. -/
theorem sends_withFields {fields : Parse α} {body : α → Server.Handler Unit}
    (hbad : P (statusReply "json_format_error")) (h : ∀ values, Sends P (body values)) :
    Sends P (withFields fields body) := by
  refine sends_bind (sends_require _) ?_
  rintro ⟨values, validAcc⟩
  cases validAcc with
  | false => exact sends_bind (sends_write hbad) fun _ => sends_pure ()
  | true => exact h values

theorem sends_fields {fields : Parse α} {body : α → Server.Handler Unit} (hbad : badFormat ∈ forms)
    (h : ∀ values, Sends (Admitted forms) (body values)) :
    Sends (Admitted forms) (withFields fields body) :=
  sends_withFields (admitted_failed hbad) h

/-- The reference around an operation writes nothing. -/
theorem sends_later (c : Call) {reply : Answer c → Server.Handler Unit}
    (h : ∀ x, Sends P (reply x)) : Sends P (answerLater c reply) :=
  sends_bind sends_acquire fun _ => sends_issue c fun x => sends_bind (h x) fun _ => sends_release

end Rules

variable (server : PoolHttpServer) (document : Value)

/-- Each object that a handler builds has its schema. -/
theorem feeConfig_accepted (config : UserFeeConfig) :
    feeConfigSchema.accepts (addUserFeeConfig config) = true := by
  simp [feeConfigSchema, addUserFeeConfig]

theorem feePlan_accepted (plan : UserFeePlanRecord) :
    feePlanSchema.accepts (addUserFeePlan plan) = true := by
  simp [feePlanSchema, addUserFeePlan, feeConfig_accepted]

theorem coinSettings_accepted (coinInfo : CoinInfo) (settings : Option UserSettingsRecord) :
    coinSettingsSchema.accepts (coinSettings server coinInfo settings) = true := by
  cases settings <;> simp [coinSettingsSchema, coinSettings]

theorem user_accepted (user : CredentialsWithStatistic) :
    userSchema.accepts (userObject user) = true := by
  simp [userSchema, userObject]

theorem balance_accepted (coinInfo : CoinInfo) (record : UserBalanceInfo) :
    balanceSchema.accepts (balanceObject server coinInfo record) = true := by
  simp [balanceSchema, balanceObject]

theorem workerStats_accepted (worker : CStats) :
    workerStatsSchema.accepts (workerStatsObject worker) = true := by
  simp [workerStatsSchema, workerStatsObject]

theorem coin_accepted (backend : PoolBackend) :
    coinSchema.accepts (coinObject server backend) = true := by
  simp [coinSchema, coinObject]

theorem block_accepted (coinInfo : CoinInfo) (block : FoundBlockRecord) (confirmations : Int) :
    blockSchema.accepts (blockObject server coinInfo block confirmations) = true := by
  simp [blockSchema, blockObject]

theorem payout_accepted (coinInfo : CoinInfo) (record : PayoutDbRecord) :
    payoutSchema.accepts (payoutObject server coinInfo record) = true := by
  simp [payoutSchema, payoutObject]

theorem poolStats_accepted (coinInfo : CoinInfo) (record : CStats) :
    acceptsMembers poolStatsFields (poolStatsMembers server coinInfo record) = true := by
  simp [poolStatsFields, poolStatsMembers]

/-- What `fnormalize` returns is finite. -/
@[simp] theorem accepts_fnormalize (x : Double) :
    Schema.finite.accepts (.double (fnormalize x)) = true := by
  cases x <;> rfl

theorem pplnsPayout_accepted (coinInfo : CoinInfo) (payout : CPPLNSPayout) :
    pplnsPayoutSchema.accepts (pplnsPayoutObject server coinInfo payout) = true := by
  simp [pplnsPayoutSchema, pplnsPayoutObject]

theorem pplnsAcc_accepted (coinInfo : CoinInfo) (payout : CPPLNSPayoutAcc) :
    pplnsAccSchema.accepts (pplnsAccObject server coinInfo payout) = true := by
  simp [pplnsAccSchema, pplnsAccObject]

theorem instance_accepted (config : Config.CInstanceConfig) :
    instanceSchema.accepts (instanceObject config) = true := by
  by_cases h : config.protocol = "stratum" <;>
    simp [instanceSchema, instanceFields, instanceObject, h]

/-- One element for each record. -/
theorem map_accepted {α : Type} {item : Schema} {f : α → Value}
    (h : ∀ a, item.accepts (f a) = true) (xs : List α) :
    ∀ value ∈ xs.map f, item.accepts value = true := List.forall_mem_map.mpr fun a _ => h a

/-- One element for each backend and its answer. -/
theorem zipWith_accepted {α β : Type} {item : Schema} {f : α → β → Value}
    (h : ∀ a b, item.accepts (f a b) = true) (xs : List α) (ys : List β) :
    ∀ value ∈ List.zipWith f xs ys, item.accepts value = true := by
  intro value hvalue
  rw [← List.map_uncurry_zip_eq_zipWith] at hvalue
  obtain ⟨⟨a, b⟩, -, rfl⟩ := List.mem_map.mp hvalue
  exact h a b

/-- The fields of a handler that passes a status of the core on. -/
theorem reports_fields {α : Type} {fields : Parse α} {body : α → Server.Handler Unit}
    (h : ∀ values, Sends (Admitted [reported]) (body values)) :
    Sends (Admitted [reported]) (withFields fields body) :=
  sends_withFields (admitted_reported (by simp)) h

/-- Whatever the status is, it has the form. -/
theorem reports (status : String) : Sends (Admitted [reported]) (replyWithStatus status) :=
  sends_reported (by simp)

/-- The reply is the status that the core calls back with, or an error of the handler. -/
theorem userAction_forms : Sends (Admitted [reported]) (onUserAction document) :=
  reports_fields fun _ => sends_later _ reports

theorem userCreate_forms : Sends (Admitted [reported]) (onUserCreate document) := by
  apply reports_fields
  rintro ⟨sessionId, credentials⟩
  dsimp only
  split
  · refine sends_bind (sends_ask _) fun x => ?_
    cases x with
    | none => exact sends_bind (reports _) fun _ => sends_pure _
    | some info => exact sends_later _ reports
  · exact sends_later _ reports

theorem userResendEmail_forms : Sends (Admitted [reported]) (onUserResendEmail document) :=
  reports_fields fun _ => sends_later _ reports

/-- The session is sent whatever the status is. -/
theorem userLogin_forms :
    Sends (Admitted (replyForms .fnUserLogin)) (onUserLogin document) :=
  sends_fields (by simp [replyForms]) fun _ => sends_later _ fun _ =>
    sends_object [("status", .string), ("sessionid", .string), ("isReadOnly", .bool)]
      (by simp [replyForms]) (by simp)

theorem userLogout_forms : Sends (Admitted [reported]) (onUserLogout document) :=
  reports_fields fun _ => sends_later _ reports

theorem userQueryMonitoringSession_forms :
    Sends (Admitted (replyForms .fnUserQueryMonitoringSession))
      (onUserQueryMonitoringSession document) :=
  sends_fields (by simp [replyForms]) fun _ => sends_later _ fun _ =>
    sends_object [("status", .string), ("sessionid", .string)] (by simp [replyForms]) (by simp)

theorem userChangeEmail_forms :
    Sends (Admitted (replyForms .fnUserChangeEmail)) (onUserChangeEmail document) :=
  sends_write ⟨notImplemented, by simp [replyForms], by simp [notImplemented, Form.admits]⟩

theorem userChangePasswordInitiate_forms :
    Sends (Admitted [reported]) (onUserChangePasswordInitiate document) :=
  reports_fields fun _ => sends_later _ reports

theorem userChangePasswordForce_forms :
    Sends (Admitted [reported]) (onUserChangePasswordForce document) :=
  reports_fields fun _ => sends_later _ reports

/-- An unknown session and an unknown user are answered alike. -/
theorem userGetCredentials_forms :
    Sends (Admitted (replyForms .fnUserGetCredentials)) (onUserGetCredentials document) := by
  apply sends_fields (by simp [replyForms])
  rintro ⟨sessionId, targetLogin⟩
  refine sends_bind (sends_ask _) fun x => ?_
  cases x with
  | none => exact sends_failed (by simp [replyForms, unknownId])
  | some tokenInfo =>
    refine sends_bind (sends_ask _) fun y => ?_
    cases y with
    | none => exact sends_failed (by simp [replyForms, unknownId])
    | some credentials =>
      exact sends_succeeded credentialsFields (by simp [replyForms]) (by simp [credentialsFields])

/-- The loop over the coins sends nothing, and each of its elements has the form. -/
theorem allCoinSettings_sends {P : Reply → Prop} (login : String) (coins : List CoinInfo)
    {k : List Value → Program Http}
    (hk : ∀ values, (∀ value ∈ values, coinSettingsSchema.accepts value = true) →
      Writes P (k values)) : Writes P (allCoinSettings server login coins k) := by
  induction coins generalizing k with
  | nil => exact hk [] (by simp)
  | cons coinInfo rest ih =>
    refine fun x => ih fun values hvalues => hk _ ?_
    exact List.forall_mem_cons.mpr ⟨coinSettings_accepted server coinInfo x, hvalues⟩

theorem userGetSettings_forms :
    Sends (Admitted (replyForms .fnUserGetSettings)) (onUserGetSettings server document) := by
  apply sends_fields (by simp [replyForms])
  rintro ⟨sessionId, targetLogin⟩
  refine sends_bind (sends_ask _) fun x => ?_
  cases x with
  | none => exact sends_failed (by simp [replyForms, unknownId])
  | some tokenInfo =>
    intro k hk
    apply allCoinSettings_sends
    intro values hvalues
    refine sends_succeeded [("coins", .array coinSettingsSchema)] (by simp [replyForms]) ?_ k hk
    simpa using hvalues

theorem userUpdateCredentials_forms :
    Sends (Admitted [reported]) (onUserUpdateCredentials document) :=
  reports_fields fun _ => sends_later _ reports

theorem userUpdateSettings_forms :
    Sends (Admitted [reported]) (onUserUpdateSettings server document) := by
  apply reports_fields
  rintro ⟨sessionId, targetLogin, coin, address, payoutThreshold, autoPayout, totp⟩
  dsimp only
  split
  · split
    · split
      · exact sends_bind (reports _) fun _ => sends_pure _
      · refine sends_bind (sends_ask _) fun x => ?_
        cases x with
        | none => exact reports _
        | some tokenInfo => exact sends_later _ reports
    · exact reports _
  · exact reports _

/-- The users are sent under the status that the core has named. -/
theorem userEnumerateAll_forms :
    Sends (Admitted (replyForms .fnUserEnumerateAll)) (onUserEnumerateAll server document) := by
  apply sends_fields (by simp [replyForms])
  rintro ⟨sessionId, coin, offset, size, sortBy, sortDescending⟩
  dsimp only
  split
  · split
    · refine sends_bind sends_acquire fun _ => sends_bind (sends_require _) fun _ =>
        sends_issue _ fun _ => sends_issue _ fun result => sends_bind ?_ fun _ => sends_release
      exact sends_object [("status", .string), ("users", .array userSchema)]
        (by simp [replyForms]) (by simp [user_accepted])
    · exact sends_failed (by simp [replyForms, invalidCoin])
  · exact sends_failed (by simp [replyForms])

/-- The core answers at once, with the plans or with a status. -/
theorem userEnumerateFeePlan_forms :
    Sends (Admitted (replyForms .fnUserEnumerateFeePlan)) (onUserEnumerateFeePlan document) := by
  apply sends_withFields (admitted_reported (by simp [replyForms]))
  intro sessionId
  refine sends_bind (sends_ask _) fun x => ?_
  cases x with
  | error status => exact sends_reported (by simp [replyForms])
  | ok result =>
    exact sends_list feePlanSchema (by simp [replyForms]) (map_accepted feePlan_accepted _)

theorem userGetFeePlan_forms :
    Sends (Admitted (replyForms .fnUserGetFeePlan)) (onUserGetFeePlan document) := by
  apply sends_withFields (admitted_reported (by simp [replyForms]))
  rintro ⟨sessionId, feePlanId⟩
  refine sends_bind (sends_ask _) fun x => ?_
  cases x with
  | error status => exact sends_reported (by simp [replyForms])
  | ok result =>
    exact sends_succeeded [("plan", feePlanSchema)] (by simp [replyForms])
      (by simp [feePlan_accepted])

theorem userUpdateFeePlan_forms :
    Sends (Admitted [reported]) (onUserUpdateFeePlan server document) := by
  apply reports_fields
  rintro ⟨sessionId, record⟩
  dsimp only
  split
  · exact reports _
  · exact sends_later _ reports

theorem userChangeFeePlan_forms :
    Sends (Admitted [reported]) (onUserChangeFeePlan document) :=
  reports_fields fun _ => sends_later _ reports

theorem userActivate2faInitiate_forms :
    Sends (Admitted (replyForms .fnUserActivate2faInitiate))
      (onUserActivate2faInitiate document) :=
  sends_fields (by simp [replyForms]) fun _ => sends_later _ fun _ =>
    sends_object [("status", .string), ("key", .string)] (by simp [replyForms]) (by simp)

theorem userDeactivate2faInitiate_forms :
    Sends (Admitted [reported]) (onUserDeactivate2faInitiate document) :=
  reports_fields fun _ => sends_later _ reports

theorem backendManualPayout_forms :
    Sends (Admitted [reported]) (onBackendManualPayout server document) := by
  apply reports_fields
  rintro ⟨sessionId, targetLogin, coin⟩
  refine sends_bind (sends_ask _) fun x => ?_
  cases x with
  | none => exact reports _
  | some login =>
    dsimp only
    split
    · exact sends_later _ reports
    · exact reports _

/-- The reply about one coin is a list as well. -/
theorem backendQueryUserBalance_forms :
    Sends (Admitted (replyForms .fnBackendQueryUserBalance))
      (onBackendQueryUserBalance server document) := by
  apply sends_fields (by simp [replyForms])
  rintro ⟨sessionId, targetLogin, coin⟩
  refine sends_bind (sends_ask _) fun x => ?_
  cases x with
  | none => exact sends_failed (by simp [replyForms, unknownId])
  | some tokenInfo =>
    dsimp only
    split
    · split
      · exact sends_later _ fun record =>
          sends_list balanceSchema (by simp [replyForms]) (by simp [balance_accepted])
      · exact sends_failed (by simp [replyForms, invalidCoin])
    · refine sends_bind sends_acquire fun _ => sends_bind (sends_require _) fun _ =>
        sends_issue _ fun balanceData => sends_bind ?_ fun _ => sends_release
      exact sends_list balanceSchema (by simp [replyForms])
        (zipWith_accepted (fun _ _ => balance_accepted server _ _) _ _)

theorem backendQueryUserStats_forms :
    Sends (Admitted (replyForms .fnBackendQueryUserStats))
      (onBackendQueryUserStats server document) := by
  apply sends_fields (by simp [replyForms])
  rintro ⟨sessionId, targetLogin, coin, offset, size, sortBy, sortDescending⟩
  dsimp only
  split
  · refine sends_bind (sends_ask _) fun x => ?_
    cases x with
    | none => exact sends_failed (by simp [replyForms, unknownId])
    | some tokenInfo =>
      dsimp only
      split
      · refine sends_bind (sends_require _) fun _ => sends_later _ fun _ =>
          sends_bind (sends_ask _) fun _ => ?_
        exact sends_succeeded userStatsFields (by simp [replyForms])
          (by simp [userStatsFields, workerStats_accepted])
      · exact sends_failed (by simp [replyForms, invalidCoin])
  · exact sends_failed (by simp [replyForms])

/-- The three history endpoints end alike. -/
theorem queryStatsHistory_forms {forms : List Form} (h : succeeded historyFields ∈ forms)
    (statistic : StatisticDb) (login worker : String)
    (timeFrom timeTo groupByInterval currentTime : Int) :
    Sends (Admitted forms) (queryStatsHistory server statistic login worker timeFrom timeTo
      groupByInterval currentTime) :=
  sends_bind (sends_ask _) fun _ =>
    sends_succeeded historyFields h (by simp [historyFields, historyObject])

theorem backendQueryUserStatsHistory_forms :
    Sends (Admitted (replyForms .fnBackendQueryUserStatsHistory))
      (onBackendQueryUserStatsHistory server document) := by
  refine sends_bind (sends_ask _) fun currentTime => sends_fields (by simp [replyForms]) ?_
  rintro ⟨⟨sessionId, targetLogin, coin⟩, timeFrom, timeTo, groupByInterval⟩
  refine sends_bind (sends_ask _) fun x => ?_
  cases x with
  | none => exact sends_failed (by simp [replyForms, unknownId])
  | some tokenInfo =>
    dsimp only
    split
    · exact sends_bind (sends_require _) fun _ => sends_bind (sends_require _) fun _ =>
        sends_bind (sends_require _) fun _ =>
          queryStatsHistory_forms server (by simp [replyForms]) _ _ _ _ _ _ _
    · exact sends_failed (by simp [replyForms, invalidCoin])

theorem backendQueryWorkerStatsHistory_forms :
    Sends (Admitted (replyForms .fnBackendQueryWorkerStatsHistory))
      (onBackendQueryWorkerStatsHistory server document) := by
  refine sends_bind (sends_ask _) fun currentTime => sends_fields (by simp [replyForms]) ?_
  rintro ⟨⟨sessionId, targetLogin, coin, workerId⟩, timeFrom, timeTo, groupByInterval⟩
  refine sends_bind (sends_ask _) fun x => ?_
  cases x with
  | none => exact sends_failed (by simp [replyForms, unknownId])
  | some tokenInfo =>
    dsimp only
    split
    · exact sends_bind (sends_require _) fun _ => sends_bind (sends_require _) fun _ =>
        sends_bind (sends_require _) fun _ =>
          queryStatsHistory_forms server (by simp [replyForms]) _ _ _ _ _ _ _
    · exact sends_failed (by simp [replyForms, invalidCoin])

theorem backendQueryCoins_forms :
    Sends (Admitted (replyForms .fnBackendQueryCoins)) (onBackendQueryCoins server document) :=
  sends_list coinSchema (by simp [replyForms]) (map_accepted (coin_accepted server) _)

theorem backendQueryFoundBlocks_forms :
    Sends (Admitted (replyForms .fnBackendQueryFoundBlocks))
      (onBackendQueryFoundBlocks server document) := by
  apply sends_fields (by simp [replyForms])
  rintro ⟨coin, heightFrom, hashFrom, count⟩
  dsimp only
  split
  · exact sends_bind (sends_require _) fun _ => sends_bind (sends_require _) fun _ =>
      sends_later _ fun blocks =>
        sends_list blockSchema (by simp [replyForms])
          (map_accepted (fun _ => block_accepted server _ _ _) _)
  · exact sends_failed (by simp [replyForms, invalidCoin])

theorem backendQueryPayouts_forms :
    Sends (Admitted (replyForms .fnBackendQueryPayouts))
      (onBackendQueryPayouts server document) := by
  apply sends_fields (by simp [replyForms])
  rintro ⟨sessionId, targetLogin, coin, timeFrom, count⟩
  refine sends_bind (sends_ask _) fun x => ?_
  cases x with
  | none => exact sends_failed (by simp [replyForms, unknownId])
  | some tokenInfo =>
    dsimp only
    split
    · exact sends_bind (sends_require _) fun _ => sends_bind (sends_ask _) fun records =>
        sends_list payoutSchema (by simp [replyForms])
          (map_accepted (payout_accepted server _) _)
    · exact sends_failed (by simp [replyForms, invalidCoin])

theorem backendQueryPoolBalance_forms :
    Sends (Admitted (replyForms .fnBackendQueryPoolBalance))
      (onBackendQueryPoolBalance document) :=
  sends_write ⟨notImplemented, by simp [replyForms], by simp [notImplemented, Form.admits]⟩

/-- One form with a coin and another without. -/
theorem backendQueryPoolStats_forms :
    Sends (Admitted (replyForms .fnBackendQueryPoolStats))
      (onBackendQueryPoolStats server document) := by
  apply sends_fields (by simp [replyForms])
  intro coin
  dsimp only
  split
  · split
    · refine sends_later _ fun record => sends_bind (sends_ask _) fun currentTime => ?_
      refine sends_succeeded [("currentTime", .int),
        ("stats", .array (.object (poolStatsFields ++ [("lastShareTime", .int)])))]
        (by simp [replyForms]) ?_
      simp [poolStatsFields, poolStatsMembers]
    · exact sends_failed (by simp [replyForms, invalidCoin])
  · refine sends_bind sends_acquire fun _ => sends_bind (sends_require _) fun _ =>
      sends_issue _ fun stats => sends_bind ?_ fun _ => sends_release
    exact sends_list (.object poolStatsFields) (by simp [replyForms])
      (zipWith_accepted (fun _ _ => by simp [poolStats_accepted]) _ _)

theorem backendQueryPoolStatsHistory_forms :
    Sends (Admitted (replyForms .fnBackendQueryPoolStatsHistory))
      (onBackendQueryPoolStatsHistory server document) := by
  refine sends_bind (sends_ask _) fun currentTime => sends_fields (by simp [replyForms]) ?_
  rintro ⟨coin, timeFrom, timeTo, groupByInterval⟩
  dsimp only
  split
  · exact sends_bind (sends_require _) fun _ => sends_bind (sends_require _) fun _ =>
      sends_bind (sends_require _) fun _ =>
        queryStatsHistory_forms server (by simp [replyForms]) _ _ _ _ _ _ _
  · exact sends_failed (by simp [replyForms, invalidCoin])

/-- The loop over the backends sends nothing either. -/
theorem profitSwitchCoeffs_sends {P : Reply → Prop} (backends : List PoolBackend)
    {k : List Value → Program Http}
    (hk : ∀ values, (∀ value ∈ values, profitSwitchSchema.accepts value = true) →
      Writes P (k values)) : Writes P (profitSwitchCoeffs backends k) := by
  induction backends generalizing k with
  | nil => exact hk [] (by simp)
  | cons backend rest ih =>
    refine fun coeff => ih fun values hvalues => hk _ ?_
    exact List.forall_mem_cons.mpr ⟨by simp [profitSwitchSchema], hvalues⟩

theorem backendQueryProfitSwitchCoeff_forms :
    Sends (Admitted (replyForms .fnBackendQueryProfitSwitchCoeff))
      (onBackendQueryProfitSwitchCoeff server document) := by
  apply sends_fields (by simp [replyForms])
  intro sessionId
  refine sends_bind (sends_ask _) fun x => ?_
  cases x with
  | none => exact sends_failed (by simp [replyForms, unknownId])
  | some tokenInfo =>
    dsimp only
    split
    · exact sends_failed (by simp [replyForms, unknownId])
    · intro k hk
      apply profitSwitchCoeffs_sends
      intro values hvalues
      exact sends_list profitSwitchSchema (by simp [replyForms]) hvalues k hk

theorem backendQueryPPLNSPayouts_forms :
    Sends (Admitted (replyForms .fnBackendQueryPPLNSPayouts))
      (onBackendQueryPPLNSPayouts server document) := by
  apply sends_fields (by simp [replyForms])
  rintro ⟨sessionId, targetLogin, coin, timeFrom, hashFrom, count⟩
  refine sends_bind (sends_ask _) fun x => ?_
  cases x with
  | none => exact sends_failed (by simp [replyForms, unknownId])
  | some tokenInfo =>
    dsimp only
    split
    · exact sends_bind (sends_require _) fun _ => sends_bind (sends_require _) fun _ =>
        sends_later _ fun result => sends_list pplnsPayoutSchema (by simp [replyForms])
          (map_accepted (pplnsPayout_accepted server _) _)
    · exact sends_failed (by simp [replyForms, invalidCoin])

/-- The only function that has an error for its interval. -/
theorem backendQueryPPLNSAcc_forms :
    Sends (Admitted (replyForms .fnBackendQueryPPLNSAcc))
      (onBackendQueryPPLNSAcc server document) := by
  apply sends_fields (by simp [replyForms])
  rintro ⟨sessionId, targetLogin, coin, timeFrom, timeTo, groupByInterval⟩
  refine sends_bind (sends_ask _) fun x => ?_
  cases x with
  | none => exact sends_failed (by simp [replyForms, unknownId])
  | some tokenInfo =>
    dsimp only
    split
    · refine sends_bind (sends_require _) fun _ => sends_bind (sends_require _) fun _ =>
        sends_bind (sends_require _) fun _ => sends_bind (sends_require _) fun invalid => ?_
      cases invalid with
      | true => exact sends_failed (by simp [replyForms])
      | false =>
        exact sends_later _ fun result => sends_list pplnsAccSchema (by simp [replyForms])
          (map_accepted (pplnsAcc_accepted server _) _)
    · exact sends_failed (by simp [replyForms, invalidCoin])

theorem backendUpdateProfitSwitchCoeff_forms :
    Sends (Admitted (replyForms .fnBackendUpdateProfitSwitchCoeff))
      (onBackendUpdateProfitSwitchCoeff server document) := by
  apply sends_fields (by simp [replyForms])
  rintro ⟨sessionId, coin, profitSwitchCoeff⟩
  refine sends_bind (sends_ask _) fun x => ?_
  cases x with
  | none => exact sends_failed (by simp [replyForms, unknownId])
  | some tokenInfo =>
    dsimp only
    split
    · exact sends_failed (by simp [replyForms, unknownId])
    · split
      · exact sends_bind (sends_ask _) fun _ => sends_succeeded [] (by simp [replyForms]) rfl
      · exact sends_failed (by simp [replyForms, invalidCoin])

/-- The loop over the intervals sends nothing; the handler answers where it stops. -/
theorem luckIntervals_sends {P : Reply → Prop} (values : List Value) (prevInterval : Int)
    (intervals : List Int) : Sends P (luckIntervals values prevInterval intervals) := by
  induction values generalizing prevInterval intervals with
  | nil => exact sends_pure _
  | cons value rest ih =>
    rw [luckIntervals]
    split
    · exact sends_pure _
    · refine sends_bind (sends_require _) fun interval => ?_
      split
      · exact sends_pure _
      · exact ih _ _

/-- The members are looked up one by one, with the same error for each. -/
theorem backendPoolLuck_forms :
    Sends (Admitted (replyForms .fnBackendPoolLuck)) (onBackendPoolLuck server document) := by
  refine sends_bind (sends_require _) fun hasCoin => ?_
  cases hasCoin with
  | false => exact sends_failed (by simp [replyForms, badFormat])
  | true =>
    refine sends_bind (sends_require _) fun hasIntervals => ?_
    cases hasIntervals with
    | false => exact sends_failed (by simp [replyForms, badFormat])
    | true =>
      refine sends_bind (sends_require _) fun coin => ?_
      split
      · refine sends_bind (sends_require _) fun values =>
          sends_bind (luckIntervals_sends _ _ _) fun intervals => ?_
        cases intervals with
        | none => exact sends_failed (by simp [replyForms, badFormat])
        | some intervals =>
          exact sends_later _ fun result => sends_list .double (by simp [replyForms])
            (map_accepted (fun _ => rfl) _)
      · exact sends_failed (by simp [replyForms, invalidCoin])

theorem instanceEnumerateAll_forms :
    Sends (Admitted (replyForms .fnInstanceEnumerateAll))
      (onInstanceEnumerateAll server document) :=
  sends_list instanceSchema (by simp [replyForms]) (map_accepted instance_accepted _)

/-- The body is what the mining statistics answer. -/
theorem complexMiningStatsGetInfo_forms :
    Sends (Admitted (replyForms .fnComplexMiningStatsGetInfo))
      (onComplexMiningStatsGetInfo document) := by
  apply sends_fields (by simp [replyForms])
  intro sessionId
  refine sends_bind (sends_ask _) fun x => ?_
  cases x with
  | none => exact sends_failed (by simp [replyForms, unknownId])
  | some tokenInfo =>
    dsimp only
    split
    · exact sends_failed (by simp [replyForms, unknownId])
    · exact sends_later _ fun data => sends_write ⟨.raw, by simp [replyForms], rfl⟩

/-- The forms of the reply to an action. -/
def formsOf : Action → List Form
  | .invoke f _ => replyForms f
  | .reply404 => [.notFound]
  | .replyWithStatus status => [failed status]

/-- Every function keeps to its forms, whatever the document and the answers of the core. -/
theorem dispatch_forms (f : FunctionTy) :
    Sends (Admitted (replyForms f)) (Endpoints.dispatch server f document) := by
  cases f with
  | fnUserAction => exact userAction_forms document
  | fnUserCreate => exact userCreate_forms document
  | fnUserResendEmail => exact userResendEmail_forms document
  | fnUserLogin => exact userLogin_forms document
  | fnUserLogout => exact userLogout_forms document
  | fnUserQueryMonitoringSession => exact userQueryMonitoringSession_forms document
  | fnUserChangeEmail => exact userChangeEmail_forms document
  | fnUserChangePasswordInitiate => exact userChangePasswordInitiate_forms document
  | fnUserChangePasswordForce => exact userChangePasswordForce_forms document
  | fnUserGetCredentials => exact userGetCredentials_forms document
  | fnUserGetSettings => exact userGetSettings_forms server document
  | fnUserUpdateCredentials => exact userUpdateCredentials_forms document
  | fnUserUpdateSettings => exact userUpdateSettings_forms server document
  | fnUserEnumerateAll => exact userEnumerateAll_forms server document
  | fnUserEnumerateFeePlan => exact userEnumerateFeePlan_forms document
  | fnUserGetFeePlan => exact userGetFeePlan_forms document
  | fnUserUpdateFeePlan => exact userUpdateFeePlan_forms server document
  | fnUserChangeFeePlan => exact userChangeFeePlan_forms document
  | fnUserActivate2faInitiate => exact userActivate2faInitiate_forms document
  | fnUserDeactivate2faInitiate => exact userDeactivate2faInitiate_forms document
  | fnBackendManualPayout => exact backendManualPayout_forms server document
  | fnBackendQueryUserBalance => exact backendQueryUserBalance_forms server document
  | fnBackendQueryUserStats => exact backendQueryUserStats_forms server document
  | fnBackendQueryUserStatsHistory => exact backendQueryUserStatsHistory_forms server document
  | fnBackendQueryWorkerStatsHistory => exact backendQueryWorkerStatsHistory_forms server document
  | fnBackendQueryCoins => exact backendQueryCoins_forms server document
  | fnBackendQueryFoundBlocks => exact backendQueryFoundBlocks_forms server document
  | fnBackendQueryPayouts => exact backendQueryPayouts_forms server document
  | fnBackendQueryPoolBalance => exact backendQueryPoolBalance_forms document
  | fnBackendQueryPoolStats => exact backendQueryPoolStats_forms server document
  | fnBackendQueryPoolStatsHistory => exact backendQueryPoolStatsHistory_forms server document
  | fnBackendQueryProfitSwitchCoeff => exact backendQueryProfitSwitchCoeff_forms server document
  | fnBackendQueryPPLNSPayouts => exact backendQueryPPLNSPayouts_forms server document
  | fnBackendQueryPPLNSAcc => exact backendQueryPPLNSAcc_forms server document
  | fnBackendUpdateProfitSwitchCoeff => exact backendUpdateProfitSwitchCoeff_forms server document
  | fnBackendPoolLuck => exact backendPoolLuck_forms server document
  | fnInstanceEnumerateAll => exact instanceEnumerateAll_forms server document
  | fnComplexMiningStatsGetInfo => exact complexMiningStatsGetInfo_forms document
  | fnUnknown | fnApi => exact sends_write ⟨.notFound, by simp [replyForms], rfl⟩

theorem action_forms (action : Action) :
    Sends (Admitted (formsOf action)) (action.handler server) := by
  cases action with
  | invoke f document => exact dispatch_forms server document f
  | reply404 => exact sends_write ⟨.notFound, by simp [formsOf], rfl⟩
  | replyWithStatus status => exact sends_failed (by simp [formsOf])

end ReplyForms
