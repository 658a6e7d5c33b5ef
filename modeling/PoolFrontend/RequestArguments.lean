import PoolFrontend.Endpoints

/-!
# The arguments of a function

What a function takes from the members of a request. Its handler reads nothing else: it goes on
with these arguments, or rejects the request.
-/
namespace RequestArguments

open CallbackProgram Json Poolcore Server RequestFields UserHandlers BackendHandlers Router
open Endpoints

@[reducible] def Arguments : FunctionTy → Type
  | .fnUserAction | .fnUserChangePasswordForce | .fnUserChangeFeePlan => String × String × String
  | .fnUserCreate => String × Credentials
  | .fnUserResendEmail | .fnUserLogin => Credentials
  | .fnUserLogout | .fnUserChangePasswordInitiate | .fnUserEnumerateFeePlan => String
  | .fnBackendQueryPoolStats | .fnBackendQueryProfitSwitchCoeff => String
  | .fnUserQueryMonitoringSession | .fnUserGetCredentials | .fnUserGetSettings => String × String
  | .fnUserGetFeePlan | .fnUserActivate2faInitiate | .fnUserDeactivate2faInitiate =>
    String × String
  | .fnUserUpdateCredentials => String × String × Credentials
  | .fnUserUpdateSettings => String × String × String × String × String × Bool × String
  | .fnUserEnumerateAll => String × String × UInt64 × UInt64 × String × Bool
  | .fnUserUpdateFeePlan => String × UserFeePlanRecord
  | .fnBackendManualPayout | .fnBackendQueryUserBalance => String × String × String
  | .fnBackendQueryUserStats => String × String × String × UInt64 × UInt64 × String × Bool
  | .fnBackendQueryUserStatsHistory => (String × String × String) × Int × Int × Int
  | .fnBackendQueryWorkerStatsHistory => (String × String × String × String) × Int × Int × Int
  | .fnBackendQueryFoundBlocks => String × Int × String × UInt32
  | .fnBackendQueryPayouts => String × String × String × UInt64 × UInt32
  | .fnBackendQueryPoolStatsHistory => String × Int × Int × Int
  | .fnBackendQueryPPLNSPayouts => String × String × String × Int × String × UInt32
  | .fnBackendQueryPPLNSAcc => String × String × String × Int × Int × Int
  | .fnBackendUpdateProfitSwitchCoeff => String × String × Double
  | .fnBackendPoolLuck => String × List Value
  | .fnComplexMiningStatsGetInfo => String × Members
  | .fnUserChangeEmail | .fnBackendQueryCoins | .fnBackendQueryPoolBalance => Unit
  | .fnInstanceEnumerateAll | .fnUnknown | .fnApi => Unit

/-- The elements of the intervals are looked at later, in the loop. -/
def poolLuckMembers (ms : Members) : Option (String × List Value) := do
  let coin ← string ms "coin"
  let intervals ← required Getter.array ms "intervals"
  return (coin, intervals)

/-- The statistics are handed the whole document. -/
def miningStatsMembers (ms : Members) : Option (String × Members) := do
  let sessionId ← string ms "id"
  return (sessionId, ms)

/-- The arguments in a request; some of the defaults depend on the time. -/
def argumentsOf (now : Int) : (f : FunctionTy) → Members → Option (Arguments f)
  | .fnUserAction => userActionMembers
  | .fnUserCreate => userCreateMembers
  | .fnUserResendEmail => credentials
  | .fnUserLogin => credentials
  | .fnUserLogout => fun ms => string ms "id"
  | .fnUserQueryMonitoringSession => fun ms => sessionTargetMembers ms "id"
  | .fnUserChangeEmail => fun _ => some ()
  | .fnUserChangePasswordInitiate => fun ms => string ms "login"
  | .fnUserChangePasswordForce => changePasswordForceMembers
  | .fnUserGetCredentials => fun ms => sessionTargetMembers ms "id"
  | .fnUserGetSettings => fun ms => sessionTargetMembers ms "id"
  | .fnUserUpdateCredentials => updateCredentialsMembers
  | .fnUserUpdateSettings => updateSettingsMembers
  | .fnUserEnumerateAll => enumerateAllMembers
  | .fnUserEnumerateFeePlan => fun ms => string ms "id"
  | .fnUserGetFeePlan => getFeePlanMembers
  | .fnUserUpdateFeePlan => feePlanMembers
  | .fnUserChangeFeePlan => changeFeePlanMembers
  | .fnUserActivate2faInitiate => fun ms => sessionTargetMembers ms "sessionId"
  | .fnUserDeactivate2faInitiate => fun ms => sessionTargetMembers ms "sessionId"
  | .fnBackendManualPayout => sessionTargetCoinMembers
  | .fnBackendQueryUserBalance => sessionTargetCoinMembers
  | .fnBackendQueryUserStats => userStatsMembers
  | .fnBackendQueryUserStatsHistory => fun ms => userHistoryMembers ms now
  | .fnBackendQueryWorkerStatsHistory => fun ms => workerHistoryMembers ms now
  | .fnBackendQueryCoins => fun _ => some ()
  | .fnBackendQueryFoundBlocks => foundBlocksMembers
  | .fnBackendQueryPayouts => payoutsMembers
  | .fnBackendQueryPoolBalance => fun _ => some ()
  | .fnBackendQueryPoolStats => fun ms => stringOr ms "coin" ""
  | .fnBackendQueryPoolStatsHistory => fun ms => poolHistoryMembers ms now
  | .fnBackendQueryProfitSwitchCoeff => fun ms => string ms "id"
  | .fnBackendQueryPPLNSPayouts => pplnsPayoutsMembers
  | .fnBackendQueryPPLNSAcc => pplnsAccMembers
  | .fnBackendUpdateProfitSwitchCoeff => profitSwitchCoeffMembers
  | .fnBackendPoolLuck => poolLuckMembers
  | .fnInstanceEnumerateAll => fun _ => some ()
  | .fnComplexMiningStatsGetInfo => miningStatsMembers
  | .fnUnknown => fun _ => some ()
  | .fnApi => fun _ => some ()

/-- The histories ask for the time before they read the request. -/
def atTime : FunctionTy → (Int → Server.Handler Unit) → Server.Handler Unit
  | .fnBackendQueryUserStatsHistory, h => ask .time >>= h
  | .fnBackendQueryWorkerStatsHistory, h => ask .time >>= h
  | .fnBackendQueryPoolStatsHistory, h => ask .time >>= h
  | _, h => h 0

/-- The function runs this body on the arguments of a request, and rejects one without. -/
def Runs (server : PoolHttpServer) (f : FunctionTy)
    (body : Int → Arguments f → Server.Handler Unit) : Prop :=
  ∀ ms, dispatch server f (.object ms) =
    atTime f fun now => accepted (argumentsOf now f ms) (body now)

variable (server : PoolHttpServer)

theorem runs_handler {f : FunctionTy} {onFunction : PoolHttpServer → Value → Server.Handler Unit}
    (hhandler : handlerOf f = some onFunction) (htime : ∀ h, atTime f h = h 0)
    {body : Arguments f → Server.Handler Unit}
    (h : ∀ ms, onFunction server (.object ms) = accepted (argumentsOf 0 f ms) body) :
    ∃ body, Runs server f body := by
  refine ⟨fun _ => body, fun ms => ?_⟩
  rw [htime, dispatch, Action.handler, hhandler]
  exact h ms

/-- Without arguments the request is not looked at. -/
theorem runs_unread {f : FunctionTy} (htime : ∀ h, atTime f h = h 0) (x : Arguments f)
    (hnone : ∀ ms, argumentsOf 0 f ms = some x)
    (h : ∀ ms, dispatch server f (.object ms) = dispatch server f (.object [])) :
    ∃ body, Runs server f body := by
  refine ⟨fun _ _ => dispatch server f (.object []), fun ms => ?_⟩
  rw [htime, hnone]
  exact h ms

/-- What is left of `onBackendPoolLuck` with its arguments read. -/
def luckOf (coin : String) (values : List Value) : Server.Handler Unit := do
  let some backend := server.backend coin | replyWithStatus "invalid_coin"
  let some intervals ← luckIntervals values 0 [] | replyWithStatus "json_format_error"
  answerLater (.poolLuck backend.accountingDb intervals) fun result =>
    replyList "luck" (result.map .double)

theorem runs_poolLuck : ∃ body, Runs server .fnBackendPoolLuck body := by
  refine ⟨fun _ arguments => luckOf server arguments.1 arguments.2, fun ms => ?_⟩
  show onBackendPoolLuck server (.object ms) = accepted (poolLuckMembers ms) _
  simp only [onBackendPoolLuck, Value.memberIs_object, Value.member_object, Handler.require_bind,
    poolLuckMembers, string, required]
  cases hcoin : ms.lookup "coin" with
  | none => rfl
  | some coin =>
    cases coin with
    | string coin =>
      cases hintervals : ms.lookup "intervals" with
      | none => rfl
      | some intervals => cases intervals <;> rfl
    | _ => rfl

/-- What is left of `onComplexMiningStatsGetInfo`. -/
def infoOf (sessionId : String) (ms : Members) : Server.Handler Unit := do
  let some tokenInfo ← ask (.validateSession sessionId "" false) | replyWithStatus "unknown_id"
  if tokenInfo.login ≠ "admin" then
    replyWithStatus "unknown_id"
  else
    answerLater (.miningStats (.object ms)) fun data => aioWrite (.reply200 (.raw data))

theorem runs_miningStats : ∃ body, Runs server .fnComplexMiningStatsGetInfo body := by
  refine ⟨fun _ arguments => infoOf arguments.1 arguments.2, fun ms => ?_⟩
  show onComplexMiningStatsGetInfo (.object ms) = accepted (miningStatsMembers ms) _
  rw [onComplexMiningStatsGetInfo, withFields_string, miningStatsMembers]
  cases string ms "id" <;> rfl

/-- Every function depends on its request through its arguments only. -/
theorem runs (f : FunctionTy) : ∃ body, Runs server f body := by
  cases f with
  | fnUserAction =>
    exact runs_handler server rfl (fun _ => rfl) fun ms => withFields_userAction ms _
  | fnUserCreate =>
    exact runs_handler server rfl (fun _ => rfl) fun ms => withFields_userCreate ms _
  | fnUserResendEmail | fnUserLogin =>
    exact runs_handler server rfl (fun _ => rfl) fun ms => withFields_credentials ms _
  | fnUserLogout | fnUserChangePasswordInitiate | fnUserEnumerateFeePlan
  | fnBackendQueryProfitSwitchCoeff =>
    exact runs_handler server rfl (fun _ => rfl) fun ms => withFields_string ms _ _ _
  | fnUserQueryMonitoringSession | fnUserGetCredentials | fnUserGetSettings
  | fnUserActivate2faInitiate | fnUserDeactivate2faInitiate =>
    exact runs_handler server rfl (fun _ => rfl) fun ms => withFields_sessionTarget ms _ _
  | fnUserChangePasswordForce =>
    exact runs_handler server rfl (fun _ => rfl) fun ms => withFields_changePasswordForce ms _
  | fnUserUpdateCredentials =>
    exact runs_handler server rfl (fun _ => rfl) fun ms => withFields_updateCredentials ms _
  | fnUserUpdateSettings =>
    exact runs_handler server rfl (fun _ => rfl) fun ms => withFields_updateSettings ms _
  | fnUserEnumerateAll =>
    exact runs_handler server rfl (fun _ => rfl) fun ms => withFields_enumerateAll ms _
  | fnUserGetFeePlan =>
    exact runs_handler server rfl (fun _ => rfl) fun ms => withFields_getFeePlan ms _
  | fnUserUpdateFeePlan =>
    exact runs_handler server rfl (fun _ => rfl) fun ms => withFields_feePlan ms _
  | fnUserChangeFeePlan =>
    exact runs_handler server rfl (fun _ => rfl) fun ms => withFields_changeFeePlan ms _
  | fnBackendManualPayout | fnBackendQueryUserBalance =>
    exact runs_handler server rfl (fun _ => rfl) fun ms => withFields_sessionTargetCoin ms _
  | fnBackendQueryUserStats =>
    exact runs_handler server rfl (fun _ => rfl) fun ms => withFields_userStats ms _
  | fnBackendQueryFoundBlocks =>
    exact runs_handler server rfl (fun _ => rfl) fun ms => withFields_foundBlocks ms _
  | fnBackendQueryPayouts =>
    exact runs_handler server rfl (fun _ => rfl) fun ms => withFields_payouts ms _
  | fnBackendQueryPoolStats =>
    exact runs_handler server rfl (fun _ => rfl) fun ms => withFields_stringOr ms _ _ _ _
  | fnBackendQueryPPLNSPayouts =>
    exact runs_handler server rfl (fun _ => rfl) fun ms => withFields_pplnsPayouts ms _
  | fnBackendQueryPPLNSAcc =>
    exact runs_handler server rfl (fun _ => rfl) fun ms => withFields_pplnsAcc ms _
  | fnBackendUpdateProfitSwitchCoeff =>
    exact runs_handler server rfl (fun _ => rfl) fun ms => withFields_profitSwitchCoeff ms _
  | fnBackendQueryUserStatsHistory =>
    exact ⟨fun _ => _, fun ms => bind_congr fun now => withFields_userHistory ms now _⟩
  | fnBackendQueryWorkerStatsHistory =>
    exact ⟨fun _ => _, fun ms => bind_congr fun now => withFields_workerHistory ms now _⟩
  | fnBackendQueryPoolStatsHistory =>
    exact ⟨fun _ => _, fun ms => bind_congr fun now => withFields_poolHistory ms now _⟩
  | fnBackendPoolLuck => exact runs_poolLuck server
  | fnComplexMiningStatsGetInfo => exact runs_miningStats server
  | fnUserChangeEmail | fnBackendQueryCoins | fnBackendQueryPoolBalance | fnInstanceEnumerateAll
  | fnUnknown | fnApi =>
    exact runs_unread server (fun _ => rfl) () (fun _ => rfl) fun _ => rfl

end RequestArguments
