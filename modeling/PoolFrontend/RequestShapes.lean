import PoolFrontend.DocumentShape
import PoolFrontend.Routing

/-!
# What the functions look at in a request

Each function looks at the members of its own names and types. What else a client sends, and in
which order, is never seen. Only the mining statistics get the document as it is.
-/
namespace RequestShapes

open DocumentShape Json Server RequestFields UserHandlers BackendHandlers Router Routing

def userFeeConfigShape : Shape := .array (.object (wholes ["userId", "percentage"]))

def coinSpecificFeeShape : Shape :=
  .array (.object [("coin", .whole), ("config", userFeeConfigShape)])

def credentialsNames : List String :=
  ["login", "password", "name", "email", "totp", "isActive", "isReadOnly", "feePlanId"]

def timeGridNames : List String := ["timeFrom", "timeTo", "groupByInterval"]

/-- The members of one value that each function reads. -/
def fieldsOf : FunctionTy → List (String × Shape)
  | .fnUserAction => wholes ["actionId", "newPassword", "totp"]
  | .fnUserCreate => wholes ("id" :: credentialsNames)
  | .fnUserResendEmail => wholes credentialsNames
  | .fnUserLogin => wholes credentialsNames
  | .fnUserLogout => wholes ["id"]
  | .fnUserQueryMonitoringSession => wholes ["id", "targetLogin"]
  | .fnUserChangeEmail => []
  | .fnUserChangePasswordInitiate => wholes ["login"]
  | .fnUserChangePasswordForce => wholes ["id", "login", "newPassword"]
  | .fnUserGetCredentials => wholes ["id", "targetLogin"]
  | .fnUserGetSettings => wholes ["id", "targetLogin"]
  | .fnUserUpdateCredentials => wholes ("id" :: "targetLogin" :: credentialsNames)
  | .fnUserUpdateSettings => wholes
    ["id", "targetLogin", "coin", "address", "payoutThreshold", "autoPayoutEnabled", "totp"]
  | .fnUserEnumerateAll => wholes ["id", "coin", "offset", "size", "sortBy", "sortDescending"]
  | .fnUserEnumerateFeePlan => wholes ["id"]
  | .fnUserGetFeePlan => wholes ["id", "feePlanId"]
  | .fnUserUpdateFeePlan => [("id", .whole), ("feePlanId", .whole),
    ("default", userFeeConfigShape), ("coinSpecificFee", coinSpecificFeeShape)]
  | .fnUserChangeFeePlan => wholes ["id", "targetLogin", "feePlanId"]
  | .fnUserActivate2faInitiate => wholes ["sessionId", "targetLogin"]
  | .fnUserDeactivate2faInitiate => wholes ["sessionId", "targetLogin"]
  | .fnBackendManualPayout => wholes ["id", "targetLogin", "coin"]
  | .fnBackendQueryUserBalance => wholes ["id", "targetLogin", "coin"]
  | .fnBackendQueryUserStats =>
    wholes ["id", "targetLogin", "coin", "offset", "size", "sortBy", "sortDescending"]
  | .fnBackendQueryUserStatsHistory => wholes ("id" :: "targetLogin" :: "coin" :: timeGridNames)
  | .fnBackendQueryWorkerStatsHistory =>
    wholes ("id" :: "targetLogin" :: "coin" :: "workerId" :: timeGridNames)
  | .fnBackendQueryCoins => []
  | .fnBackendQueryFoundBlocks => wholes ["coin", "heightFrom", "hashFrom", "count"]
  | .fnBackendQueryPayouts => wholes ["id", "targetLogin", "coin", "timeFrom", "count"]
  | .fnBackendQueryPoolBalance => []
  | .fnBackendQueryPoolStats => wholes ["coin"]
  | .fnBackendQueryPoolStatsHistory => wholes ("coin" :: timeGridNames)
  | .fnBackendQueryProfitSwitchCoeff => wholes ["id"]
  | .fnBackendQueryPPLNSPayouts =>
    wholes ["id", "targetLogin", "coin", "timeFrom", "hashFrom", "count"]
  | .fnBackendQueryPPLNSAcc => wholes ("id" :: "targetLogin" :: "coin" :: timeGridNames)
  | .fnBackendUpdateProfitSwitchCoeff => wholes ["id", "coin", "profitSwitchCoeff"]
  | .fnBackendPoolLuck => wholes ["coin", "intervals"]
  | .fnInstanceEnumerateAll => []
  | .fnComplexMiningStatsGetInfo => []
  | .fnUnknown => []
  | .fnApi => []

/-- The mining statistics are handed the whole document. -/
def shapeOf (function : FunctionTy) : Shape :=
  if function = .fnComplexMiningStatsGetInfo then .whole else .object (fieldsOf function)

section Readers

variable {fields : List (String × Shape)} {v w : Value} {name : String} {α : Type}

/-- The helpers see the first member of a name and nothing else. -/
theorem parseRequired_agree (h : Agree (.object fields) v w) (hmem : (name, .whole) ∈ fields)
    (g : Getter α) (out : α) : parseRequired g v name out = parseRequired g w name out := by
  simp only [parseRequired, h.hasMember hmem, h.member_whole hmem]

theorem parseOptional_agree (h : Agree (.object fields) v w) (hmem : (name, .whole) ∈ fields)
    (g : Getter α) (out default : α) :
    parseOptional g v name out default = parseOptional g w name out default := by
  simp only [parseOptional, h.hasMember hmem, h.member_whole hmem]

/-- A loop over elements that agree, if its body cannot tell them apart. -/
theorem parseObjects_agree {item : Value → Parse α} {shape : Shape}
    (hitem : ∀ x y, Agree shape x y → item x = item y) {xs ys : List Value}
    (h : List.Forall₂ (Agree shape) xs ys) (out : List α) :
    parseObjects item xs out = parseObjects item ys out := by
  induction h generalizing out with
  | nil => rfl
  | cons hfirst _ ih => simp only [parseObjects, hfirst.isObject, hitem _ _ hfirst, ih]

end Readers

section FeePlans

variable {fields : List (String × Shape)} {v w : Value} {name : String}

theorem userFeePair_agree (h : Agree (.object (wholes ["userId", "percentage"])) v w) :
    jsonParseUserFeePair v = jsonParseUserFeePair w := by
  simp only [jsonParseUserFeePair, jsonParseString, jsonParseNumber,
    parseRequired_agree h (mem_wholes (by simp : "userId" ∈ ["userId", "percentage"])),
    parseRequired_agree h (mem_wholes (by simp : "percentage" ∈ ["userId", "percentage"]))]

theorem userFeeConfig_agree (h : Agree (.object fields) v w)
    (hmem : (name, userFeeConfigShape) ∈ fields) (config : Poolcore.UserFeeConfig) :
    jsonParseUserFeeConfig v name config = jsonParseUserFeeConfig w name config := by
  have hpairs : ∀ xs ys, List.Forall₂ (Agree (.object (wholes ["userId", "percentage"]))) xs ys →
      parseObjects jsonParseUserFeePair xs config = parseObjects jsonParseUserFeePair ys config :=
    fun xs ys hall => parseObjects_agree (fun x y => userFeePair_agree) hall config
  unfold jsonParseUserFeeConfig
  rw [h.memberIs hmem fun x y hagree => hagree.isArray, h.member_array hmem hpairs]

theorem coinSpecificFee_agree
    (h : Agree (.object [("coin", .whole), ("config", userFeeConfigShape)]) v w) :
    jsonParseCoinSpecificFee v = jsonParseCoinSpecificFee w := by
  have hcoin := parseRequired_agree h (by simp : ("coin", Shape.whole) ∈ _) Getter.string ""
  have hconfig := userFeeConfig_agree h (by simp : ("config", userFeeConfigShape) ∈ _) []
  simp only [jsonParseCoinSpecificFee, jsonParseString, hcoin, hconfig]

theorem userFeePlan_agree (h : Agree (.object (fieldsOf .fnUserUpdateFeePlan)) v w) :
    jsonParseUserFeePlan v = jsonParseUserFeePlan w := by
  have hid := parseRequired_agree h (by simp [fieldsOf] : ("id", Shape.whole) ∈ _) Getter.string ""
  have hplan := parseRequired_agree h (by simp [fieldsOf] : ("feePlanId", Shape.whole) ∈ _)
    Getter.string ""
  have hdefault := userFeeConfig_agree h
    (by simp [fieldsOf] : ("default", userFeeConfigShape) ∈ _) []
  have hmem : ("coinSpecificFee", coinSpecificFeeShape) ∈ fieldsOf .fnUserUpdateFeePlan := by
    simp [fieldsOf]
  unfold jsonParseUserFeePlan
  simp only [jsonParseString, hid, hplan, hdefault,
    h.memberIs hmem fun x y hagree => hagree.isArray]
  apply bind_congr
  intro sessionId
  apply bind_congr
  intro feePlanId
  apply bind_congr
  intro default
  apply bind_congr
  intro present
  cases present with
  | false => rfl
  | true =>
    apply h.member_array hmem
    intro xs ys hall
    rw [parseObjects_agree (fun x y => coinSpecificFee_agree) hall []]

end FeePlans

/-- The luck of a pool is read without the helpers. -/
theorem poolLuck_agree {server : PoolHttpServer} {v w : Value}
    (h : Agree (.object (fieldsOf .fnBackendPoolLuck)) v w) :
    onBackendPoolLuck server v = onBackendPoolLuck server w := by
  have hcoin : ("coin", Shape.whole) ∈ fieldsOf .fnBackendPoolLuck := by simp [fieldsOf, wholes]
  have hintervals : ("intervals", Shape.whole) ∈ fieldsOf .fnBackendPoolLuck := by
    simp [fieldsOf, wholes]
  simp only [onBackendPoolLuck, h.memberIs_whole hcoin, h.memberIs_whole hintervals,
    h.member_whole hcoin, h.member_whole hintervals]

/-- Handlers whose reads agree are the same program. -/
theorem function_agree {server : PoolHttpServer} {function : FunctionTy} {v w : Value}
    (h : Agree (.object (fieldsOf function)) v w)
    (hfunction : function ≠ .fnComplexMiningStatsGetInfo) :
    (Action.invoke function v).handler server = (Action.invoke function w).handler server := by
  cases function with
  | fnComplexMiningStatsGetInfo => exact absurd rfl hfunction
  | fnUserUpdateFeePlan => simp only [Action.handler, handlerOf, onUserUpdateFeePlan,
      userFeePlan_agree h]
  | fnBackendPoolLuck => simp only [Action.handler, handlerOf, poolLuck_agree h]
  | _ =>
    simp (disch := simp [fieldsOf, wholes, credentialsNames, timeGridNames]) only
      [Action.handler, handlerOf,
        onUserAction, userActionFields, onUserCreate, userCreateFields, onUserResendEmail,
        onUserLogin, onUserLogout, onUserQueryMonitoringSession, onUserChangeEmail,
        onUserChangePasswordInitiate, onUserChangePasswordForce, changePasswordForceFields,
        onUserGetCredentials, onUserGetSettings, onUserUpdateCredentials, updateCredentialsFields,
        onUserUpdateSettings, updateSettingsFields, onUserEnumerateAll, enumerateAllFields,
        onUserEnumerateFeePlan, onUserGetFeePlan, getFeePlanFields, onUserChangeFeePlan,
        changeFeePlanFields, onUserActivate2faInitiate, onUserDeactivate2faInitiate,
        onBackendManualPayout, onBackendQueryUserBalance, onBackendQueryUserStats, userStatsFields,
        onBackendQueryUserStatsHistory, userHistoryFields, onBackendQueryWorkerStatsHistory,
        workerHistoryFields, onBackendQueryCoins, onBackendQueryFoundBlocks, foundBlocksFields,
        onBackendQueryPayouts, payoutsFields, onBackendQueryPoolBalance, onBackendQueryPoolStats,
        onBackendQueryPoolStatsHistory, poolHistoryFields, onBackendQueryProfitSwitchCoeff,
        onBackendQueryPPLNSPayouts, pplnsPayoutsFields, onBackendQueryPPLNSAcc, pplnsAccFields,
        onBackendUpdateProfitSwitchCoeff, profitSwitchCoeffFields, onInstanceEnumerateAll,
        parseUserCredentials, sessionTarget, sessionTargetCoin, timeGrid, jsonParseString,
        jsonParseStringOr, jsonParseInt64, jsonParseInt64Or, jsonParseUInt64Or, jsonParseUIntOr,
        jsonParseBooleanOr, jsonParseBoolean, jsonParseUnsetBooleanOr, jsonParseNumber,
        parseRequired_agree h, parseOptional_agree h]

section Requests

variable {parse : List UInt8 → Option Value} {server : PoolHttpServer} {function : FunctionTy}
  {v w : Value}

theorem invoke_agree (h : Agree (shapeOf function) v w) :
    (Action.invoke function v).handler server = (Action.invoke function w).handler server := by
  by_cases hfunction : function = .fnComplexMiningStatsGetInfo
  · rw [shapeOf, if_pos hfunction] at h
    rw [h.whole]
  · rw [shapeOf, if_neg hfunction] at h
    exact function_agree h hfunction

/-- The answer to a whole request, errors of the body included. -/
theorem answerTo_agree {held held' : List UInt8} {r r' : Request} (hmethod : r.method = r'.method)
    (hpath : r.path = r'.path) (hrouted : routed r.method r.path = some function)
    (hv : parse (requestText (held ++ r.body)) = some v)
    (hw : parse (requestText (held' ++ r'.body)) = some w) (h : Agree (shapeOf function) v w) :
    (answerTo parse held r).handler server = (answerTo parse held' r').handler server := by
  simp only [answerTo, ← hmethod, ← hpath, hrouted, requestObject, hv, hw]
  have hkind := h.isObject
  have hinvoke : (Action.invoke function v).handler server =
      (Action.invoke function w).handler server := invoke_agree h
  cases v with
  | object ms =>
    cases w with
    | object ns =>
      by_cases hfunction : (handlerOf function).isSome = true
      · simp only [hfunction, if_true]
        exact hinvoke
      · simp only [hfunction]
        rfl
    | _ => cases hkind
  | _ =>
    cases w with
    | object ns => cases hkind
    | _ => rfl

/-- Two requests for one function whose documents agree where the function looks are served
alike: the same reads, the same calls of the pool and the same replies. -/
theorem served_alike {context context' : Context} {r r' : Request} (hmethod : r.method = r'.method)
    (hpath : r.path = r'.path) (hrouted : routed r.method r.path = some function)
    (hv : parse (requestText (context.request ++ r.body)) = some v)
    (hw : parse (requestText (context'.request ++ r'.body)) = some w)
    (h : Agree (shapeOf function) v w) :
    (deliver parse context r.components).2.map (Action.handler server) =
      (deliver parse context' r'.components).2.map (Action.handler server) := by
  rw [(deliver_request parse context r).1, (deliver_request parse context' r').1]
  simp only [List.map_cons, List.map_nil, answerTo_agree hmethod hpath hrouted hv hw h]

end Requests

def loginRequest (body : List UInt8) : Request where
  method := .hmPost
  path := [bytes "api", bytes "userLogin"]
  fragments := []
  last := body
  components :=
    [.method .hmPost, .uriPathElement (bytes "api"), .uriPathElement (bytes "userLogin"),
      .dataLast body]
  shape := rfl

def login : Members := [("login", .string "miner"), ("password", .string "secret")]

/-- The members the other way round, a further one and a second login. -/
def otherLogin : Members :=
  [("password", .string "secret"), ("login", .string "miner")] ++
    [("remember", .bool true), ("login", .string "other")]

def loginText : List UInt8 := bytes "\x7b\"login\":\"miner\",\"password\":\"secret\"\x7d"

def otherLoginText : List UInt8 :=
  bytes ("\x7b\"password\":\"secret\",\"login\":\"miner\"," ++
    "\"remember\":true,\"login\":\"other\"\x7d")

/-- A parser of the two texts. -/
def parseLogin (text : List UInt8) : Option Value :=
  if text = loginText then some (.object login)
  else if text = otherLoginText then some (.object otherLogin)
  else none

theorem login_agree : Agree (shapeOf .fnUserLogin) (.object login) (.object otherLogin) := by
  have hperm : login.Perm [("password", .string "secret"), ("login", .string "miner")] :=
    .swap _ _ _
  apply Agree.trans (agree_perm hperm (by decide))
  apply agree_more
  intro name shape hmem
  simp only [fieldsOf, wholes, credentialsNames, List.map_cons, List.map_nil, List.mem_cons,
    Prod.mk.injEq, List.not_mem_nil, or_false] at hmem
  rcases hmem with h | h | h | h | h | h | h | h <;> rw [h.1] <;>
    first | exact .inl rfl | exact .inr rfl

theorem served_alike_login :
    (deliver parseLogin {} (loginRequest loginText).components).2.map
        (Action.handler emptyServer) =
      (deliver parseLogin {} (loginRequest otherLoginText).components).2.map
        (Action.handler emptyServer) :=
  served_alike rfl rfl (by decide) rfl rfl login_agree

end RequestShapes
