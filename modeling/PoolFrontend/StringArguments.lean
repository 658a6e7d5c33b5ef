import PoolFrontend.RequestArguments
import PoolFrontend.Routing

/-!
# Strings on their way to a handler

The body is handed to the JSON parser as a C string, and so is every string member to the
variable that takes it: a NUL ends either. What a handler is handed is compared with what it
would be handed if a string were assigned as a whole.
-/
namespace StringArguments

open Json Poolcore Server RequestFields UserHandlers BackendHandlers Router Routing
open RequestArguments

section Reads

variable (assign : String → String) (ms : Members) (name : String)

/-- The getter of a string, with the assignment of the string left open. -/
def stringGetter : Getter String where
  is := Value.isString
  get v := v.getString.map assign
  admits v := by cases v <;> rfl

def text : Option String := required (stringGetter assign) ms name

end Reads

def cutCredentials (c : Credentials) : Credentials :=
  { c with
    login := cString c.login
    password := cString c.password
    name := cString c.name
    eMail := cString c.eMail
    twoFactor := cString c.twoFactor
    feePlan := cString c.feePlan }

def cutPair (pair : UserFeePair) : UserFeePair := { pair with userId := cString pair.userId }

def cutCoinFee (fee : CoinSpecificFeeRecord) : CoinSpecificFeeRecord :=
  ⟨cString fee.coinName, fee.config.map cutPair⟩

def cutPlan (r : UserFeePlanRecord) : UserFeePlanRecord :=
  ⟨cString r.feePlanId, r.default.map cutPair, r.coinSpecificFee.map cutCoinFee⟩

/-- The arguments with every string cut at its first NUL. -/
def cut : (f : FunctionTy) → Arguments f → Arguments f
  | .fnUserAction, (a, b, c) | .fnUserChangePasswordForce, (a, b, c) =>
    (cString a, cString b, cString c)
  | .fnUserChangeFeePlan, (a, b, c) | .fnBackendManualPayout, (a, b, c) =>
    (cString a, cString b, cString c)
  | .fnBackendQueryUserBalance, (a, b, c) => (cString a, cString b, cString c)
  | .fnUserCreate, (a, c) => (cString a, cutCredentials c)
  | .fnUserResendEmail, c | .fnUserLogin, c => cutCredentials c
  | .fnUserLogout, a | .fnUserChangePasswordInitiate, a | .fnUserEnumerateFeePlan, a => cString a
  | .fnBackendQueryPoolStats, a | .fnBackendQueryProfitSwitchCoeff, a => cString a
  | .fnUserQueryMonitoringSession, (a, b) | .fnUserGetCredentials, (a, b) =>
    (cString a, cString b)
  | .fnUserGetSettings, (a, b) | .fnUserGetFeePlan, (a, b) => (cString a, cString b)
  | .fnUserActivate2faInitiate, (a, b) | .fnUserDeactivate2faInitiate, (a, b) =>
    (cString a, cString b)
  | .fnUserUpdateCredentials, (a, b, c) => (cString a, cString b, cutCredentials c)
  | .fnUserUpdateSettings, (a, b, c, d, e, flag, g) =>
    (cString a, cString b, cString c, cString d, cString e, flag, cString g)
  | .fnUserEnumerateAll, (a, b, offset, size, c, flag) =>
    (cString a, cString b, offset, size, cString c, flag)
  | .fnUserUpdateFeePlan, (a, plan) => (cString a, cutPlan plan)
  | .fnBackendQueryUserStats, (a, b, c, offset, size, d, flag) =>
    (cString a, cString b, cString c, offset, size, cString d, flag)
  | .fnBackendQueryUserStatsHistory, ((a, b, c), grid) => ((cString a, cString b, cString c), grid)
  | .fnBackendQueryWorkerStatsHistory, ((a, b, c, d), grid) =>
    ((cString a, cString b, cString c, cString d), grid)
  | .fnBackendQueryFoundBlocks, (a, height, b, count) => (cString a, height, cString b, count)
  | .fnBackendQueryPayouts, (a, b, c, rest) => (cString a, cString b, cString c, rest)
  | .fnBackendQueryPoolStatsHistory, (a, grid) => (cString a, grid)
  | .fnBackendQueryPPLNSPayouts, (a, b, c, time, d, count) =>
    (cString a, cString b, cString c, time, cString d, count)
  | .fnBackendQueryPPLNSAcc, (a, b, c, grid) => (cString a, cString b, cString c, grid)
  | .fnBackendUpdateProfitSwitchCoeff, (a, b, x) => (cString a, cString b, x)
  | .fnBackendPoolLuck, (a, intervals) => (cString a, intervals)
  | .fnComplexMiningStatsGetInfo, (a, ms) => (cString a, ms)
  | .fnUserChangeEmail, _ | .fnBackendQueryCoins, _ | .fnBackendQueryPoolBalance, _ => ()
  | .fnInstanceEnumerateAll, _ | .fnUnknown, _ | .fnApi, _ => ()

section Naturality

variable (ms : Members) (name : String)

end Naturality

section Body

variable (parse : List UInt8 → Option Value)

variable {parse}

end Body

end StringArguments
