import PoolFrontend.OneAnswer
import PoolFrontend.Routing

/-!
# The accessors of the handlers

A handler looks at its document through one group of reads. Each group keeps the preconditions
of the accessors on every object, and a request that is accepted leaves no variable unset.
-/
namespace Accessors

open CallbackProgram CallbackRuns
open Json Poolcore Server RequestFields UserHandlers BackendHandlers Router Endpoints
open Routing (parseOnly)

/-- The reads of a handler at a time, what they yield of an object, and how the values are
kept: a variable that may be unset is kept as an `Option`. -/
structure Reading where
  Fields : Type
  Values : Type
  read : Int → Value → Parse Fields
  value : Int → Members → Option Values
  keep : Values → Fields
  reads : ∀ now ms, Reads (read now (.object ms)) ((value now ms).map keep)

/-- Reads into variables that start with a value. -/
def Reading.plain {α : Type} (read : Value → Parse α) (value : Members → Option α)
    (reads : ∀ ms, Reads (read (.object ms)) (value ms)) : Reading where
  Fields := α
  Values := α
  read _ := read
  value _ := value
  keep := id
  reads _ ms := by
    rw [Option.map_id]
    exact reads ms

/-- Some of the variables start unset. -/
def Reading.unset {α β : Type} (read : Value → Parse β) (value : Members → Option α)
    (keep : α → β) (reads : ∀ ms, Reads (read (.object ms)) ((value ms).map keep)) : Reading where
  Fields := β
  Values := α
  read _ := read
  value _ := value
  keep := keep
  reads _ := reads

/-- The defaults depend on the time. -/
def Reading.timed {α β : Type} (read : Value → Int → Parse β) (value : Members → Int → Option α)
    (keep : α → β)
    (reads : ∀ ms now, Reads (read (.object ms) now) ((value ms now).map keep)) : Reading where
  Fields := β
  Values := α
  read now document := read document now
  value now ms := value ms now
  keep := keep
  reads now ms := reads ms now

def session : Reading :=
  .plain (fun document => jsonParseString document "id" "") (fun ms => string ms "id")
    fun ms => reads_string ms "id" ""

def target (idName : String) : Reading :=
  .plain (fun document => sessionTarget document idName)
    (fun ms => sessionTargetMembers ms idName) fun ms => reads_sessionTarget ms idName

def login : Reading :=
  .plain (fun document => parseUserCredentials document {}) credentials reads_credentials

/-- The session, beside the document that is handed on as it is. -/
def handedOn : Reading :=
  .plain (fun document => do
      let sessionId ← jsonParseString document "id" ""
      return (sessionId, document))
    (fun ms => (string ms "id").map fun sessionId => (sessionId, Value.object ms))
    fun ms => reads_congr (reads_bind (reads_string ms "id" "") fun _ => reads_pure _) (by
      cases string ms "id" <;> rfl)

/-- The reads of each endpoint; those that read nothing have none, and `onBackendPoolLuck`
reads without the helpers. -/
def readingOf : FunctionTy → Option Reading
  | .fnUserAction => some (.plain userActionFields userActionMembers reads_userAction)
  | .fnUserCreate => some (.plain userCreateFields userCreateMembers reads_userCreate)
  | .fnUserResendEmail => some login
  | .fnUserLogin => some login
  | .fnUserLogout => some session
  | .fnUserQueryMonitoringSession => some (target "id")
  | .fnUserChangePasswordInitiate =>
    some (.plain (fun document => jsonParseString document "login" "")
      (fun ms => string ms "login") fun ms => reads_string ms "login" "")
  | .fnUserChangePasswordForce =>
    some (.plain changePasswordForceFields changePasswordForceMembers reads_changePasswordForce)
  | .fnUserGetCredentials => some (target "id")
  | .fnUserGetSettings => some (target "id")
  | .fnUserUpdateCredentials =>
    some (.plain updateCredentialsFields updateCredentialsMembers reads_updateCredentials)
  | .fnUserUpdateSettings =>
    some (.plain updateSettingsFields updateSettingsMembers reads_updateSettings)
  | .fnUserEnumerateAll =>
    some (.unset enumerateAllFields enumerateAllMembers
      (fun (sessionId, coin, offset, size, sortBy, sortDescending) =>
        (sessionId, coin, offset, size, sortBy, some sortDescending)) reads_enumerateAll)
  | .fnUserEnumerateFeePlan => some session
  | .fnUserGetFeePlan => some (.plain getFeePlanFields getFeePlanMembers reads_getFeePlan)
  | .fnUserUpdateFeePlan => some (.plain jsonParseUserFeePlan feePlanMembers reads_feePlan)
  | .fnUserChangeFeePlan =>
    some (.plain changeFeePlanFields changeFeePlanMembers reads_changeFeePlan)
  | .fnUserActivate2faInitiate => some (target "sessionId")
  | .fnUserDeactivate2faInitiate => some (target "sessionId")
  | .fnBackendManualPayout =>
    some (.plain sessionTargetCoin sessionTargetCoinMembers reads_sessionTargetCoin)
  | .fnBackendQueryUserBalance =>
    some (.plain sessionTargetCoin sessionTargetCoinMembers reads_sessionTargetCoin)
  | .fnBackendQueryUserStats =>
    some (.unset userStatsFields userStatsMembers
      (fun (sessionId, targetLogin, coin, offset, size, sortBy, sortDescending) =>
        (sessionId, targetLogin, coin, offset, size, sortBy, some sortDescending))
      reads_userStats)
  | .fnBackendQueryUserStatsHistory =>
    some (.timed userHistoryFields userHistoryMembers
      (fun (target, timeFrom, timeTo, groupByInterval) =>
        (target, some timeFrom, some timeTo, some groupByInterval)) reads_userHistory)
  | .fnBackendQueryWorkerStatsHistory =>
    some (.timed workerHistoryFields workerHistoryMembers
      (fun (target, timeFrom, timeTo, groupByInterval) =>
        (target, some timeFrom, some timeTo, some groupByInterval)) reads_workerHistory)
  | .fnBackendQueryFoundBlocks =>
    some (.unset foundBlocksFields foundBlocksMembers
      (fun (coin, heightFrom, hashFrom, count) =>
        (coin, some heightFrom, hashFrom, some count)) reads_foundBlocks)
  | .fnBackendQueryPayouts =>
    some (.unset payoutsFields payoutsMembers
      (fun (sessionId, targetLogin, coin, timeFrom, count) =>
        (sessionId, targetLogin, coin, timeFrom, some count)) reads_payouts)
  | .fnBackendQueryPoolStats =>
    some (.plain (fun document => jsonParseStringOr document "coin" "" "")
      (fun ms => stringOr ms "coin" "") fun ms => reads_stringOr ms "coin" "" "")
  | .fnBackendQueryPoolStatsHistory =>
    some (.timed poolHistoryFields poolHistoryMembers
      (fun (coin, timeFrom, timeTo, groupByInterval) =>
        (coin, some timeFrom, some timeTo, some groupByInterval)) reads_poolHistory)
  | .fnBackendQueryProfitSwitchCoeff => some session
  | .fnBackendQueryPPLNSPayouts =>
    some (.unset pplnsPayoutsFields pplnsPayoutsMembers
      (fun (sessionId, targetLogin, coin, timeFrom, hashFrom, count) =>
        (sessionId, targetLogin, coin, some timeFrom, hashFrom, some count)) reads_pplnsPayouts)
  | .fnBackendQueryPPLNSAcc =>
    some (.unset pplnsAccFields pplnsAccMembers
      (fun (sessionId, targetLogin, coin, timeFrom, timeTo, groupByInterval) =>
        (sessionId, targetLogin, coin, some timeFrom, some timeTo, some groupByInterval))
      reads_pplnsAcc)
  | .fnBackendUpdateProfitSwitchCoeff =>
    some (.plain profitSwitchCoeffFields profitSwitchCoeffMembers reads_profitSwitchCoeff)
  | .fnComplexMiningStatsGetInfo => some handedOn
  | _ => none

/-- The handler is the frame around these reads; the body sees only what they yield. -/
def Through (server : PoolHttpServer) (f : FunctionTy) (r : Reading) : Prop :=
  (∃ body : r.Fields → Server.Handler Unit, ∀ document,
    dispatch server f document = withFields (r.read 0 document) body) ∨
  ∃ body : Int → r.Fields → Server.Handler Unit, ∀ document,
    dispatch server f document =
      ask .time >>= fun now => withFields (r.read now document) (body now)

theorem withFields_beside {α β : Type} (fields : Parse α) (y : β)
    (body : α × β → Server.Handler Unit) :
    withFields (do
      let x ← fields
      return (x, y)) body = withFields fields fun x => body (x, y) := by
  funext k
  unfold withFields
  cases h : fields true with
  | none => simp [h, require, Handler.require]
  | some result => simp [h, require, Handler.require]

theorem through_fields {server : PoolHttpServer} {f : FunctionTy} {r : Reading}
    {body : r.Fields → Server.Handler Unit}
    (h : ∀ document, dispatch server f document = withFields (r.read 0 document) body) :
    Through server f r := .inl ⟨body, h⟩

theorem through_time {server : PoolHttpServer} {f : FunctionTy} {r : Reading}
    {body : Int → r.Fields → Server.Handler Unit}
    (h : ∀ document, dispatch server f document =
      ask .time >>= fun now => withFields (r.read now document) (body now)) :
    Through server f r := .inr ⟨body, h⟩

/-- What `onComplexMiningStatsGetInfo` does with its field and the document it hands on. -/
def miningStats (sessionId : String) (document : Value) : Server.Handler Unit := do
  let some tokenInfo ← ask (.validateSession sessionId "" false) | replyWithStatus "unknown_id"
  if tokenInfo.login ≠ "admin" then
    replyWithStatus "unknown_id"
  else
    answerLater (.miningStats document) fun data => aioWrite (.reply200 (.raw data))

theorem onComplexMiningStatsGetInfo_fields (document : Value) :
    onComplexMiningStatsGetInfo document =
      withFields (jsonParseString document "id" "") fun sessionId =>
        miningStats sessionId document := rfl

theorem reads_through (server : PoolHttpServer) (f : FunctionTy) (r : Reading)
    (h : readingOf f = some r) : Through server f r := by
  cases f with
  | fnUnknown | fnApi | fnUserChangeEmail | fnBackendQueryCoins | fnBackendQueryPoolBalance
  | fnBackendPoolLuck | fnInstanceEnumerateAll => cases h
  | fnBackendQueryUserStatsHistory | fnBackendQueryWorkerStatsHistory
  | fnBackendQueryPoolStatsHistory =>
    cases h
    apply through_time
    intro document
    simp only [dispatch, Action.handler, handlerOf, onBackendQueryUserStatsHistory,
      onBackendQueryWorkerStatsHistory, onBackendQueryPoolStatsHistory]
    rfl
  | fnComplexMiningStatsGetInfo =>
    cases h
    apply through_fields
    intro document
    show onComplexMiningStatsGetInfo document = _
    rw [onComplexMiningStatsGetInfo_fields]
    exact (withFields_beside _ document fun fields => miningStats fields.1 fields.2).symm
  | _ =>
    cases h
    apply through_fields
    intro document
    simp only [dispatch, Action.handler, handlerOf, onUserAction, onUserCreate,
      onUserResendEmail, onUserLogin, onUserLogout, onUserQueryMonitoringSession,
      onUserChangePasswordInitiate, onUserChangePasswordForce, onUserGetCredentials,
      onUserGetSettings, onUserUpdateCredentials, onUserUpdateSettings, onUserEnumerateAll,
      onUserEnumerateFeePlan, onUserGetFeePlan, onUserUpdateFeePlan, onUserChangeFeePlan,
      onUserActivate2faInitiate, onUserDeactivate2faInitiate, onBackendManualPayout,
      onBackendQueryUserBalance, onBackendQueryUserStats, onBackendQueryFoundBlocks,
      onBackendQueryPayouts, onBackendQueryPoolStats, onBackendQueryProfitSwitchCoeff,
      onBackendQueryPPLNSPayouts, onBackendQueryPPLNSAcc, onBackendUpdateProfitSwitchCoeff]
    rfl

/-- Under the discipline no task stands at a violated precondition. -/
theorem disciplined_defined {I : Interface} {s : State I} (h : Disciplined s) :
    Task.running .abort ∉ s.tasks := by
  intro habort
  cases h with
  | live ph t rest tasks phase idle count =>
    rw [tasks] at habort
    rcases Multiset.mem_cons.mp habort with rfl | hr
    · cases ph <;> simp [TaskInPhase, InPhase] at phase
    · have hdone := idle _ hr
      simp at hdone
  | ended idle message balanced =>
    have hdone := idle _ habort
    simp at hdone

theorem dispatch_defined (server : PoolHttpServer) (f : FunctionTy) (ms : Members)
    (h : ¬ Undefined server ms f) {s : State Http}
    (hs : Reaches (start (dispatch server f (.object ms)).program) s) :
    Task.running .abort ∉ s.tasks := by
  have hfresh := (dispatch_orderly server ms f).answers h
  have hdisciplined := reaches_invariant disciplined_step hs (disciplined_start hfresh)
  exact disciplined_defined hdisciplined

/-- What the handler of a function does with the members of an object.
* `reads`: it sees the object only through its group of reads. No accessor of the group
  violates its precondition, whatever the flag is; a variable keeps an unset value only when
  the flag is cleared, and then the handler does not go on.
* `unread`: without a group, only `onBackendPoolLuck` looks at the object.
* `defined`: no schedule of the handler and its callbacks meets a violated precondition or
  an unset variable. The excluded requests fail on their list of databases or on their
  interval, after the reads. -/
structure AccessorsHold (server : PoolHttpServer) (f : FunctionTy) (ms : Members) : Prop where
  reads : ∀ r, readingOf f = some r → Through server f r ∧
    ∀ now, Reads (r.read now (.object ms)) ((r.value now ms).map r.keep)
  unread : readingOf f = none → f ≠ .fnBackendPoolLuck →
    ∀ document, dispatch server f (.object ms) = dispatch server f document
  defined : ¬ Undefined server ms f →
    ∀ s, Reaches (start (dispatch server f (.object ms)).program) s →
      Task.running .abort ∉ s.tasks

theorem dispatch_unread (server : PoolHttpServer) (f : FunctionTy) (hnone : readingOf f = none)
    (hluck : f ≠ .fnBackendPoolLuck) (document document' : Value) :
    dispatch server f document = dispatch server f document' := by
  cases f with
  | fnBackendPoolLuck => exact absurd rfl hluck
  | fnUnknown | fnApi | fnUserChangeEmail | fnBackendQueryCoins | fnBackendQueryPoolBalance
  | fnInstanceEnumerateAll => rfl
  | _ => cases hnone

theorem dispatch_accessorsHold (server : PoolHttpServer) (f : FunctionTy) (ms : Members) :
    AccessorsHold server f ms where
  reads r hr := ⟨reads_through server f r hr, fun now => r.reads now ms⟩
  unread hnone hluck document := dispatch_unread server f hnone hluck (.object ms) document
  defined hdefined _ hs := dispatch_defined server f ms hdefined hs

theorem invoked_object {parse : List UInt8 → Option Value} {function f : FunctionTy}
    {request : List UInt8} {document : Value}
    (h : (onDataLast parse function request).1 = .invoke f document) :
    ∃ ms, document = .object ms := by
  unfold onDataLast at h
  split at h
  · cases h
  · rename_i parsed hparsed
    split at h
    · cases h
    · rename_i hobject
      split at h
      · cases h
        cases document with
        | object ms => exact ⟨ms, rfl⟩
        | _ => simp [Value.isObject] at hobject
      · cases h

/-- Whatever the body, a handler is run on an object, and its accessors hold there. -/
theorem accessors_hold (server : PoolHttpServer) (parse : List UInt8 → Option Value)
    (function f : FunctionTy) (request : List UInt8) (document : Value)
    (h : (onDataLast parse function request).1 = .invoke f document) :
    ∃ ms, document = .object ms ∧ AccessorsHold server f ms := by
  obtain ⟨ms, hms⟩ := invoked_object h
  exact ⟨ms, hms, dispatch_accessorsHold server f ms⟩

def nullPlan : Members :=
  [("id", .int 5), ("default", .array [.null]), ("coinSpecificFee", .bool true)]

def nullPlanText : List UInt8 :=
  bytes "\x7b\"id\":5,\"default\":[null],\"coinSpecificFee\":true\x7d"

/-- A fee plan whose pairs are no objects reaches its handler. -/
theorem accessors_hold_feePlan : ∃ ms,
    Value.object nullPlan = .object ms ∧ AccessorsHold emptyServer .fnUserUpdateFeePlan ms :=
  accessors_hold emptyServer (parseOnly nullPlanText (.object nullPlan)) .fnUserUpdateFeePlan
    .fnUserUpdateFeePlan nullPlanText _ rfl

end Accessors
