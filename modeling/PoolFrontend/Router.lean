import PoolFrontend.UserHandlers
import PoolFrontend.BackendHandlers

/-!
# From request components to a handler

The parser delivers a request piece by piece; the connection keeps the method, the
function found so far and the body. The JSON parser is a parameter: it is given the
text up to the first NUL, and yields nothing on a parse error.
-/
namespace Router

open CallbackProgram Json Server UserHandlers BackendHandlers

inductive FunctionTy where
  | fnUnknown | fnApi
  | fnUserAction | fnUserCreate | fnUserResendEmail | fnUserLogin | fnUserLogout
  | fnUserQueryMonitoringSession | fnUserChangeEmail | fnUserChangePasswordInitiate
  | fnUserChangePasswordForce | fnUserGetCredentials | fnUserGetSettings
  | fnUserUpdateCredentials | fnUserUpdateSettings | fnUserEnumerateAll | fnUserGetFeePlan
  | fnUserEnumerateFeePlan | fnUserUpdateFeePlan | fnUserChangeFeePlan
  | fnUserActivate2faInitiate | fnUserDeactivate2faInitiate
  | fnBackendManualPayout | fnBackendQueryCoins | fnBackendQueryUserBalance
  | fnBackendQueryUserStats | fnBackendQueryUserStatsHistory | fnBackendQueryWorkerStatsHistory
  | fnBackendQueryFoundBlocks | fnBackendQueryPayouts | fnBackendQueryPoolBalance
  | fnBackendQueryPoolStats | fnBackendQueryPoolStatsHistory | fnBackendQueryProfitSwitchCoeff
  | fnBackendQueryPPLNSPayouts | fnBackendQueryPPLNSAcc | fnBackendUpdateProfitSwitchCoeff
  | fnBackendPoolLuck
  | fnInstanceEnumerateAll
  | fnComplexMiningStatsGetInfo
  deriving DecidableEq, Repr

inductive HttpMethod where
  | hmUnknown | hmPost
  | other : Nat → HttpMethod
  deriving DecidableEq, Repr

def functionNameMap : List (String × HttpMethod × FunctionTy) := [
  ("userAction", .hmPost, .fnUserAction),
  ("userCreate", .hmPost, .fnUserCreate),
  ("userResendEmail", .hmPost, .fnUserResendEmail),
  ("userLogin", .hmPost, .fnUserLogin),
  ("userLogout", .hmPost, .fnUserLogout),
  ("userQueryMonitoringSession", .hmPost, .fnUserQueryMonitoringSession),
  ("userChangeEmail", .hmPost, .fnUserChangeEmail),
  ("userChangePasswordForce", .hmPost, .fnUserChangePasswordForce),
  ("userChangePasswordInitiate", .hmPost, .fnUserChangePasswordInitiate),
  ("userGetCredentials", .hmPost, .fnUserGetCredentials),
  ("userGetSettings", .hmPost, .fnUserGetSettings),
  ("userUpdateCredentials", .hmPost, .fnUserUpdateCredentials),
  ("userUpdateSettings", .hmPost, .fnUserUpdateSettings),
  ("userEnumerateAll", .hmPost, .fnUserEnumerateAll),
  ("userEnumerateFeePlan", .hmPost, .fnUserEnumerateFeePlan),
  ("userGetFeePlan", .hmPost, .fnUserGetFeePlan),
  ("userUpdateFeePlan", .hmPost, .fnUserUpdateFeePlan),
  ("userChangeFeePlan", .hmPost, .fnUserChangeFeePlan),
  ("userActivate2faInitiate", .hmPost, .fnUserActivate2faInitiate),
  ("userDeactivate2faInitiate", .hmPost, .fnUserDeactivate2faInitiate),
  ("backendManualPayout", .hmPost, .fnBackendManualPayout),
  ("backendQueryCoins", .hmPost, .fnBackendQueryCoins),
  ("backendQueryFoundBlocks", .hmPost, .fnBackendQueryFoundBlocks),
  ("backendQueryPayouts", .hmPost, .fnBackendQueryPayouts),
  ("backendQueryPoolBalance", .hmPost, .fnBackendQueryPoolBalance),
  ("backendQueryPoolStats", .hmPost, .fnBackendQueryPoolStats),
  ("backendQueryPoolStatsHistory", .hmPost, .fnBackendQueryPoolStatsHistory),
  ("backendQueryProfitSwitchCoeff", .hmPost, .fnBackendQueryProfitSwitchCoeff),
  ("backendQueryUserBalance", .hmPost, .fnBackendQueryUserBalance),
  ("backendQueryUserStats", .hmPost, .fnBackendQueryUserStats),
  ("backendQueryUserStatsHistory", .hmPost, .fnBackendQueryUserStatsHistory),
  ("backendQueryWorkerStatsHistory", .hmPost, .fnBackendQueryWorkerStatsHistory),
  ("backendQueryPPLNSPayouts", .hmPost, .fnBackendQueryPPLNSPayouts),
  ("backendQueryPPLNSAcc", .hmPost, .fnBackendQueryPPLNSAcc),
  ("backendUpdateProfitSwitchCoeff", .hmPost, .fnBackendUpdateProfitSwitchCoeff),
  ("backendPoolLuck", .hmPost, .fnBackendPoolLuck),
  ("instanceEnumerateAll", .hmPost, .fnInstanceEnumerateAll),
  ("complexMiningStatsGetInfo", .hmPost, .fnComplexMiningStatsGetInfo)]

/-- The bytes of an ASCII literal. -/
def bytes (s : String) : List UInt8 := s.toList.map fun c => c.toNat.toUInt8

/-- `FunctionNameMap_.find` -/
def findFunction (functionName : List UInt8) : Option (HttpMethod × FunctionTy) :=
  (functionNameMap.find? fun entry => bytes entry.1 = functionName).map Prod.snd

/-- The handler the switch calls for a function; the default branch has none. -/
def handlerOf : FunctionTy → Option (PoolHttpServer → Value → Handler Unit)
  | .fnUserAction => some fun _ => onUserAction
  | .fnUserCreate => some fun _ => onUserCreate
  | .fnUserResendEmail => some fun _ => onUserResendEmail
  | .fnUserLogin => some fun _ => onUserLogin
  | .fnUserLogout => some fun _ => onUserLogout
  | .fnUserQueryMonitoringSession => some fun _ => onUserQueryMonitoringSession
  | .fnUserChangeEmail => some fun _ => onUserChangeEmail
  | .fnUserChangePasswordInitiate => some fun _ => onUserChangePasswordInitiate
  | .fnUserChangePasswordForce => some fun _ => onUserChangePasswordForce
  | .fnUserGetCredentials => some fun _ => onUserGetCredentials
  | .fnUserGetSettings => some onUserGetSettings
  | .fnUserUpdateCredentials => some fun _ => onUserUpdateCredentials
  | .fnUserUpdateSettings => some onUserUpdateSettings
  | .fnUserEnumerateAll => some onUserEnumerateAll
  | .fnUserEnumerateFeePlan => some fun _ => onUserEnumerateFeePlan
  | .fnUserGetFeePlan => some fun _ => onUserGetFeePlan
  | .fnUserUpdateFeePlan => some onUserUpdateFeePlan
  | .fnUserChangeFeePlan => some fun _ => onUserChangeFeePlan
  | .fnUserActivate2faInitiate => some fun _ => onUserActivate2faInitiate
  | .fnUserDeactivate2faInitiate => some fun _ => onUserDeactivate2faInitiate
  | .fnBackendManualPayout => some onBackendManualPayout
  | .fnBackendQueryUserBalance => some onBackendQueryUserBalance
  | .fnBackendQueryUserStats => some onBackendQueryUserStats
  | .fnBackendQueryUserStatsHistory => some onBackendQueryUserStatsHistory
  | .fnBackendQueryWorkerStatsHistory => some onBackendQueryWorkerStatsHistory
  | .fnBackendQueryCoins => some onBackendQueryCoins
  | .fnBackendQueryFoundBlocks => some onBackendQueryFoundBlocks
  | .fnBackendQueryPayouts => some onBackendQueryPayouts
  | .fnBackendQueryPoolBalance => some fun _ => onBackendQueryPoolBalance
  | .fnBackendQueryPoolStats => some onBackendQueryPoolStats
  | .fnBackendQueryPoolStatsHistory => some onBackendQueryPoolStatsHistory
  | .fnBackendQueryProfitSwitchCoeff => some onBackendQueryProfitSwitchCoeff
  | .fnBackendQueryPPLNSPayouts => some onBackendQueryPPLNSPayouts
  | .fnBackendQueryPPLNSAcc => some onBackendQueryPPLNSAcc
  | .fnBackendUpdateProfitSwitchCoeff => some onBackendUpdateProfitSwitchCoeff
  | .fnBackendPoolLuck => some onBackendPoolLuck
  | .fnInstanceEnumerateAll => some onInstanceEnumerateAll
  | .fnComplexMiningStatsGetInfo => some fun _ => onComplexMiningStatsGetInfo
  | .fnUnknown => none
  | .fnApi => none

structure Context where
  method : HttpMethod := .hmUnknown
  function : FunctionTy := .fnUnknown
  request : List UInt8 := []
  deriving DecidableEq, Repr

/-- A component of any further type is `other`. -/
inductive Component where
  | method : HttpMethod → Component
  | uriPathElement : List UInt8 → Component
  | data : List UInt8 → Component
  | dataLast : List UInt8 → Component
  | other : Component
  deriving DecidableEq, Repr

/-- What the connection does about a component, if anything. -/
inductive Action where
  | invoke : FunctionTy → Value → Action
  | reply404 : Action
  | replyWithStatus : String → Action

/-- The statements an action stands for. -/
def Action.handler (server : PoolHttpServer) : Action → Handler Unit
  | .invoke f document =>
    match handlerOf f with
    | some onFunction => onFunction server document
    | none => aioWrite .reply404
  | .reply404 => aioWrite .reply404
  | .replyWithStatus status => Server.replyWithStatus status

/-- `proceed` is the value returned to the parser: whether to deliver more. -/
structure Parsed where
  context : Context
  action : Option Action
  proceed : Bool

/-- The text handed to the JSON parser. -/
def requestText (request : List UInt8) : List UInt8 :=
  if request ≠ [] then request.takeWhile (· ≠ 0) else bytes "\x7b\x7d"

section Delivery

variable (parse : List UInt8 → Option Value)

/-- The answer to a complete body, and whether the request counts as served. -/
def onDataLast (function : FunctionTy) (request : List UInt8) : Action × Bool :=
  match parse (requestText request) with
  | none => (.replyWithStatus "invalid_json", true)
  | some document =>
    if !document.isObject then (.replyWithStatus "invalid_json", true)
    else
      match handlerOf function with
      | some _ => (.invoke function document, true)
      | none => (.reply404, false)

def onParse (context : Context) : Component → Parsed
  | .method m => ⟨{ context with method := m, function := .fnUnknown }, none, true⟩
  | .uriPathElement data =>
    if context.function = .fnUnknown ∧ data = bytes "api" then
      ⟨{ context with function := .fnApi }, none, true⟩
    else if context.function = .fnApi then
      match findFunction data with
      | none => ⟨context, some .reply404, false⟩
      | some (method, function) =>
        if method ≠ context.method then ⟨context, some .reply404, false⟩
        else ⟨{ context with function := function }, none, true⟩
    else ⟨context, some .reply404, false⟩
  | .data data => ⟨{ context with request := context.request ++ data }, none, true⟩
  | .dataLast data =>
    let request := context.request ++ data
    let (action, proceed) := onDataLast parse context.function request
    ⟨{ context with request := request }, some action, proceed⟩
  | .other => ⟨context, none, true⟩

/-- The parser delivers the components until the connection declines more. -/
def deliver : Context → List Component → Context × List Action
  | context, [] => (context, [])
  | context, c :: cs =>
    let parsed := onParse parse context c
    if parsed.proceed then
      let rest := deliver parsed.context cs
      (rest.1, parsed.action.toList ++ rest.2)
    else (parsed.context, parsed.action.toList)

end Delivery

/-- One request as the parser delivers it, with components of other types anywhere. -/
structure Request where
  method : HttpMethod
  path : List (List UInt8)
  fragments : List (List UInt8)
  last : List UInt8
  components : List Component
  shape : components.filter (· ≠ .other) =
    .method method :: (path.map .uriPathElement ++ (fragments.map .data ++ [.dataLast last]))

def Request.body (r : Request) : List UInt8 := r.fragments.flatten ++ r.last

/-- The requests of one connection, one after the other; the actions of each. -/
def serveAll (parse : List UInt8 → Option Value) : Context → List Request → List (List Action)
  | _, [] => []
  | context, r :: rs =>
    let served := deliver parse context r.components
    served.2 :: serveAll parse served.1 rs

end Router
