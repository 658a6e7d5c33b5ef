import PoolFrontend.MachineInt
import PoolFrontend.RequestArguments
import PoolFrontend.Routing

/-!
# The client

The methods of the class `Poolfrontend`. A method posts a JSON object to the URL of its function;
a parameter that is `None` is left out of it.
-/
namespace PoolClient

open Json MachineInt Poolcore Server RequestFields UserHandlers BackendHandlers Router Routing
open RequestArguments

/-- A signed integer of 64 bits. -/
abbrev Long := { n : Int // InInt64 n }

inductive Number where
  | int : Long → Number
  | float : Double → Number

/-- The dictionaries of a fee plan. -/
structure FeePair where
  userId : String
  percentage : Number

structure CoinFee where
  coin : String
  config : List FeePair

inductive Method where
  | userChangePasswordInitiate (login : String)
  | userChangePasswordForce (adminSessionId login newPassword : String)
  | userCreate (name password email : String) (sessionId : Option String)
      (isActive isReadOnly : Option Bool) (feePlan : Option String)
  | userResendEmail (login password : String)
  | userAction (actionId : String) (newPassword totp : Option String)
  | userLogin (name password : String) (totp : Option String)
  | userLogout (sessionId : String)
  | userGetCredentials (sessionId : String) (targetLogin : Option String)
  | userUpdateCredentials (sessionId newName : String) (targetLogin : Option String)
  | userGetSettings (sessionId : String) (targetLogin : Option String)
  | userUpdateSettings (sessionId coin address payoutThreshold : String)
      (autoPayoutEnabled : Bool) (targetLogin totp : Option String)
  | userEnumerateAll (sessionId coin : String) (offset size : Option UInt64)
      (sortBy : Option String) (sortDescending : Option Bool)
  | userEnumerateFeePlan (adminSessionId : String)
  | userGetFeePlan (adminSessionId feePlanId : String)
  | userUpdateFeePlan (adminSessionId feePlanId : String) (default : List FeePair)
      (coinSpecificFee : Option (List CoinFee))
  | userChangeFeePlan (adminSessionId targetLogin feePlanId : String)
  | userActivate2faInitiate (sessionId : String) (targetLogin : Option String)
  | userDeactivate2faInitiate (sessionId : String) (targetLogin : Option String)
  | backendManualPayout (sessionId coin : String) (targetLogin : Option String)
  | backendQueryCoins
  | backendQueryUserBalance (sessionId : String) (coin targetLogin : Option String)
  | backendQueryFoundBlocks (coin : String) (heightFrom : Option Long) (hashFrom : Option String)
      (count : Option UInt32)
  | backendQueryPayouts (sessionId coin : String) (targetLogin : Option String)
      (timeFrom : Option UInt64) (count : Option UInt32)
  | backendQueryPoolStats (coin : Option String)
  | backendQueryPoolStatsHistory (coin : String) (timeFrom timeTo groupByInterval : Option Long)
  | backendQueryUserStats (sessionId coin : String) (targetLogin : Option String)
      (offset size : Option UInt64) (sortBy : Option String) (sortDescending : Option Bool)
  | backendQueryUserStatsHistory (sessionId coin : String) (targetLogin : Option String)
      (timeFrom timeTo groupByInterval : Option Long)
  | backendQueryWorkerStatsHistory (sessionId coin workerId : String)
      (targetLogin : Option String) (timeFrom timeTo groupByInterval : Option Long)
  | backendQueryProfitSwitchCoeff (adminSessionId : String)
  | backendUpdateProfitSwitchCoeff (adminSessionId coin : String) (profitSwitchCoeff : Number)
  | backendPoolLuck (coin : String) (intervals : List Int)
  | instanceEnumerateAll

/-- The parameters `functionName` and `data` of `__call__`. -/
structure Posted where
  functionName : String
  data : Members

/-- `if value is not None: data.update({name: value})` -/
def given {α : Type} (name : String) (encode : α → Value) (value : Option α) : Members :=
  (value.map fun x => (name, encode x)).toList

def ofLong (n : Long) : Value := .int n
def ofUInt64 (n : UInt64) : Value := .int n.toNat
def ofUInt32 (n : UInt32) : Value := .int n.toNat

def Number.value : Number → Value
  | .int n => .int n
  | .float x => .double x

def ofFeeConfig (config : List FeePair) : Value :=
  .array (config.map fun pair =>
    .object [("userId", .string pair.userId), ("percentage", pair.percentage.value)])

def ofCoinFees (fees : List CoinFee) : Value :=
  .array (fees.map fun fee =>
    .object [("coin", .string fee.coin), ("config", ofFeeConfig fee.config)])

/-- The interval of the history methods. -/
def timeGridData (timeFrom timeTo groupByInterval : Option Long) : Members :=
  given "timeFrom" ofLong timeFrom ++ given "timeTo" ofLong timeTo ++
    given "groupByInterval" ofLong groupByInterval

def Method.posts : Method → Posted
  | .userChangePasswordInitiate login => ⟨"userChangePasswordInitiate", [("login", .string login)]⟩
  | .userChangePasswordForce adminSessionId login newPassword => ⟨"userChangePasswordForce",
      [("id", .string adminSessionId), ("login", .string login),
        ("newPassword", .string newPassword)]⟩
  | .userCreate name password email sessionId isActive isReadOnly feePlan => ⟨"userCreate",
      [("login", .string name), ("password", .string password), ("email", .string email)] ++
        given "id" .string sessionId ++ given "isActive" .bool isActive ++
        given "isReadOnly" .bool isReadOnly ++ given "feePlanId" .string feePlan⟩
  | .userResendEmail login password =>
    ⟨"userResendEmail", [("login", .string login), ("password", .string password)]⟩
  | .userAction actionId newPassword totp => ⟨"userAction",
      [("actionId", .string actionId)] ++ given "newPassword" .string newPassword ++
        given "totp" .string totp⟩
  | .userLogin name password totp => ⟨"userLogin",
      [("login", .string name), ("password", .string password)] ++ given "totp" .string totp⟩
  | .userLogout sessionId => ⟨"userLogout", [("id", .string sessionId)]⟩
  | .userGetCredentials sessionId targetLogin => ⟨"userGetCredentials",
      [("id", .string sessionId)] ++ given "targetLogin" .string targetLogin⟩
  | .userUpdateCredentials sessionId newName targetLogin => ⟨"userUpdateCredentials",
      [("id", .string sessionId), ("name", .string newName)] ++
        given "targetLogin" .string targetLogin⟩
  | .userGetSettings sessionId targetLogin => ⟨"userGetSettings",
      [("id", .string sessionId)] ++ given "targetLogin" .string targetLogin⟩
  | .userUpdateSettings sessionId coin address payoutThreshold autoPayoutEnabled targetLogin totp =>
    ⟨"userUpdateSettings",
      [("id", .string sessionId), ("coin", .string coin), ("address", .string address),
        ("payoutThreshold", .string payoutThreshold),
        ("autoPayoutEnabled", .bool autoPayoutEnabled)] ++
        given "targetLogin" .string targetLogin ++ given "totp" .string totp⟩
  | .userEnumerateAll sessionId coin offset size sortBy sortDescending => ⟨"userEnumerateAll",
      [("id", .string sessionId), ("coin", .string coin)] ++ given "offset" ofUInt64 offset ++
        given "size" ofUInt64 size ++ given "sortBy" .string sortBy ++
        given "sortDescending" .bool sortDescending⟩
  | .userEnumerateFeePlan adminSessionId =>
    ⟨"userEnumerateFeePlan", [("id", .string adminSessionId)]⟩
  | .userGetFeePlan adminSessionId feePlanId => ⟨"userGetFeePlan",
      [("id", .string adminSessionId), ("feePlanId", .string feePlanId)]⟩
  | .userUpdateFeePlan adminSessionId feePlanId default coinSpecificFee => ⟨"userUpdateFeePlan",
      [("id", .string adminSessionId), ("feePlanId", .string feePlanId),
        ("default", ofFeeConfig default)] ++
        given "coinSpecificFee" ofCoinFees coinSpecificFee⟩
  | .userChangeFeePlan adminSessionId targetLogin feePlanId => ⟨"userChangeFeePlan",
      [("id", .string adminSessionId), ("targetLogin", .string targetLogin),
        ("feePlanId", .string feePlanId)]⟩
  | .userActivate2faInitiate sessionId targetLogin => ⟨"userActivate2faInitiate",
      [("sessionId", .string sessionId)] ++ given "targetLogin" .string targetLogin⟩
  | .userDeactivate2faInitiate sessionId targetLogin => ⟨"userDeactivate2faInitiate",
      [("sessionId", .string sessionId)] ++ given "targetLogin" .string targetLogin⟩
  | .backendManualPayout sessionId coin targetLogin => ⟨"backendManualPayout",
      [("id", .string sessionId), ("coin", .string coin)] ++
        given "targetLogin" .string targetLogin⟩
  | .backendQueryCoins => ⟨"backendQueryCoins", []⟩
  | .backendQueryUserBalance sessionId coin targetLogin => ⟨"backendQueryUserBalance",
      [("id", .string sessionId)] ++ given "coin" .string coin ++
        given "targetLogin" .string targetLogin⟩
  | .backendQueryFoundBlocks coin heightFrom hashFrom count => ⟨"backendQueryFoundBlocks",
      [("coin", .string coin)] ++ given "heightFrom" ofLong heightFrom ++
        given "hashFrom" .string hashFrom ++ given "count" ofUInt32 count⟩
  | .backendQueryPayouts sessionId coin targetLogin timeFrom count => ⟨"backendQueryPayouts",
      [("id", .string sessionId), ("coin", .string coin)] ++
        given "targetLogin" .string targetLogin ++ given "timeFrom" ofUInt64 timeFrom ++
        given "count" ofUInt32 count⟩
  | .backendQueryPoolStats coin => ⟨"backendQueryPoolStats", given "coin" .string coin⟩
  | .backendQueryPoolStatsHistory coin timeFrom timeTo groupByInterval =>
    ⟨"backendQueryPoolStatsHistory",
      [("coin", .string coin)] ++ timeGridData timeFrom timeTo groupByInterval⟩
  | .backendQueryUserStats sessionId coin targetLogin offset size sortBy sortDescending =>
    ⟨"backendQueryUserStats",
      [("id", .string sessionId), ("coin", .string coin)] ++
        given "targetLogin" .string targetLogin ++ given "offset" ofUInt64 offset ++
        given "size" ofUInt64 size ++ given "sortBy" .string sortBy ++
        given "sortDescending" .bool sortDescending⟩
  | .backendQueryUserStatsHistory sessionId coin targetLogin timeFrom timeTo groupByInterval =>
    ⟨"backendQueryUserStatsHistory",
      [("id", .string sessionId), ("coin", .string coin)] ++
        given "targetLogin" .string targetLogin ++ timeGridData timeFrom timeTo groupByInterval⟩
  | .backendQueryWorkerStatsHistory sessionId coin workerId targetLogin timeFrom timeTo
      groupByInterval => ⟨"backendQueryWorkerStatsHistory",
      [("id", .string sessionId), ("coin", .string coin), ("workerId", .string workerId)] ++
        given "targetLogin" .string targetLogin ++ timeGridData timeFrom timeTo groupByInterval⟩
  | .backendQueryProfitSwitchCoeff adminSessionId =>
    ⟨"backendQueryProfitSwitchCoeff", [("id", .string adminSessionId)]⟩
  | .backendUpdateProfitSwitchCoeff adminSessionId coin profitSwitchCoeff =>
    ⟨"backendUpdateProfitSwitchCoeff",
      [("id", .string adminSessionId), ("coin", .string coin),
        ("profitSwitchCoeff", profitSwitchCoeff.value)]⟩
  | .backendPoolLuck coin intervals => ⟨"backendPoolLuck",
      [("coin", .string coin), ("intervals", .array (intervals.map .int))]⟩
  | .instanceEnumerateAll => ⟨"instanceEnumerateAll", []⟩

def Method.function : Method → FunctionTy
  | .userChangePasswordInitiate .. => .fnUserChangePasswordInitiate
  | .userChangePasswordForce .. => .fnUserChangePasswordForce
  | .userCreate .. => .fnUserCreate
  | .userResendEmail .. => .fnUserResendEmail
  | .userAction .. => .fnUserAction
  | .userLogin .. => .fnUserLogin
  | .userLogout .. => .fnUserLogout
  | .userGetCredentials .. => .fnUserGetCredentials
  | .userUpdateCredentials .. => .fnUserUpdateCredentials
  | .userGetSettings .. => .fnUserGetSettings
  | .userUpdateSettings .. => .fnUserUpdateSettings
  | .userEnumerateAll .. => .fnUserEnumerateAll
  | .userEnumerateFeePlan .. => .fnUserEnumerateFeePlan
  | .userGetFeePlan .. => .fnUserGetFeePlan
  | .userUpdateFeePlan .. => .fnUserUpdateFeePlan
  | .userChangeFeePlan .. => .fnUserChangeFeePlan
  | .userActivate2faInitiate .. => .fnUserActivate2faInitiate
  | .userDeactivate2faInitiate .. => .fnUserDeactivate2faInitiate
  | .backendManualPayout .. => .fnBackendManualPayout
  | .backendQueryCoins => .fnBackendQueryCoins
  | .backendQueryUserBalance .. => .fnBackendQueryUserBalance
  | .backendQueryFoundBlocks .. => .fnBackendQueryFoundBlocks
  | .backendQueryPayouts .. => .fnBackendQueryPayouts
  | .backendQueryPoolStats .. => .fnBackendQueryPoolStats
  | .backendQueryPoolStatsHistory .. => .fnBackendQueryPoolStatsHistory
  | .backendQueryUserStats .. => .fnBackendQueryUserStats
  | .backendQueryUserStatsHistory .. => .fnBackendQueryUserStatsHistory
  | .backendQueryWorkerStatsHistory .. => .fnBackendQueryWorkerStatsHistory
  | .backendQueryProfitSwitchCoeff .. => .fnBackendQueryProfitSwitchCoeff
  | .backendUpdateProfitSwitchCoeff .. => .fnBackendUpdateProfitSwitchCoeff
  | .backendPoolLuck .. => .fnBackendPoolLuck
  | .instanceEnumerateAll => .fnInstanceEnumerateAll

/-- A text as the server takes it, and its default. -/
def text (value : Option String) (default : String) : String := (value.map cString).getD default

def number (value : Option Long) (default : Int) : Int := (value.map Subtype.val).getD default

def Number.double : Number → Double
  | .int n => .ofInt n
  | .float x => x

def feeConfig (config : List FeePair) : UserFeeConfig :=
  config.map fun pair => ⟨cString pair.userId, pair.percentage.double⟩

def coinFees (fees : List CoinFee) : List CoinSpecificFeeRecord :=
  fees.map fun fee => ⟨cString fee.coin, feeConfig fee.config⟩

/-- By default the last day in hours. -/
def timeGrid (now : Int) (timeFrom timeTo groupByInterval : Option Long) : Int × Int × Int :=
  (number timeFrom (now - 24 * 3600), number timeTo now, number groupByInterval 3600)

/-- The arguments a method means. -/
def Method.arguments (now : Int) : (m : Method) → Arguments m.function
  | .userChangePasswordInitiate login => cString login
  | .userChangePasswordForce adminSessionId login newPassword =>
    (cString adminSessionId, cString login, cString newPassword)
  | .userCreate name password email sessionId isActive isReadOnly feePlan =>
    (text sessionId "", {
      login := cString name
      password := cString password
      eMail := cString email
      isActive := isActive.getD false
      isReadOnly := isReadOnly.getD false
      feePlan := text feePlan "" })
  | .userResendEmail login password => { login := cString login, password := cString password }
  | .userAction actionId newPassword totp =>
    (cString actionId, text newPassword "", text totp "")
  | .userLogin name password totp =>
    { login := cString name, password := cString password, twoFactor := text totp "" }
  | .userLogout sessionId => cString sessionId
  | .userGetCredentials sessionId targetLogin => (cString sessionId, text targetLogin "")
  | .userUpdateCredentials sessionId newName targetLogin =>
    (cString sessionId, text targetLogin "", { name := cString newName })
  | .userGetSettings sessionId targetLogin => (cString sessionId, text targetLogin "")
  | .userUpdateSettings sessionId coin address payoutThreshold autoPayoutEnabled targetLogin totp =>
    (cString sessionId, text targetLogin "", cString coin, cString address,
      cString payoutThreshold, autoPayoutEnabled, text totp "")
  | .userEnumerateAll sessionId coin offset size sortBy sortDescending =>
    (cString sessionId, cString coin, offset.getD 0, size.getD 100, text sortBy "averagePower",
      sortDescending.getD true)
  | .userEnumerateFeePlan adminSessionId => cString adminSessionId
  | .userGetFeePlan adminSessionId feePlanId => (cString adminSessionId, cString feePlanId)
  | .userUpdateFeePlan adminSessionId feePlanId default coinSpecificFee =>
    (cString adminSessionId, {
      feePlanId := cString feePlanId
      default := feeConfig default
      coinSpecificFee := coinFees (coinSpecificFee.getD []) })
  | .userChangeFeePlan adminSessionId targetLogin feePlanId =>
    (cString adminSessionId, cString targetLogin, cString feePlanId)
  | .userActivate2faInitiate sessionId targetLogin => (cString sessionId, text targetLogin "")
  | .userDeactivate2faInitiate sessionId targetLogin => (cString sessionId, text targetLogin "")
  | .backendManualPayout sessionId coin targetLogin =>
    (cString sessionId, text targetLogin "", cString coin)
  | .backendQueryCoins => ()
  | .backendQueryUserBalance sessionId coin targetLogin =>
    (cString sessionId, text targetLogin "", text coin "")
  | .backendQueryFoundBlocks coin heightFrom hashFrom count =>
    (cString coin, number heightFrom (-1), text hashFrom "", count.getD 20)
  | .backendQueryPayouts sessionId coin targetLogin timeFrom count =>
    (cString sessionId, text targetLogin "", cString coin, timeFrom.getD 0, count.getD 20)
  | .backendQueryPoolStats coin => text coin ""
  | .backendQueryPoolStatsHistory coin timeFrom timeTo groupByInterval =>
    (cString coin, timeGrid now timeFrom timeTo groupByInterval)
  | .backendQueryUserStats sessionId coin targetLogin offset size sortBy sortDescending =>
    (cString sessionId, text targetLogin "", cString coin, offset.getD 0, size.getD 4096,
      text sortBy "name", sortDescending.getD false)
  | .backendQueryUserStatsHistory sessionId coin targetLogin timeFrom timeTo groupByInterval =>
    ((cString sessionId, text targetLogin "", cString coin),
      timeGrid now timeFrom timeTo groupByInterval)
  | .backendQueryWorkerStatsHistory sessionId coin workerId targetLogin timeFrom timeTo
      groupByInterval =>
    ((cString sessionId, text targetLogin "", cString coin, cString workerId),
      timeGrid now timeFrom timeTo groupByInterval)
  | .backendQueryProfitSwitchCoeff adminSessionId => cString adminSessionId
  | .backendUpdateProfitSwitchCoeff adminSessionId coin profitSwitchCoeff =>
    (cString adminSessionId, cString coin, profitSwitchCoeff.double)
  | .backendPoolLuck coin intervals => (cString coin, intervals.map .int)
  | .instanceEnumerateAll => ()

section Reading

/-- The value of a member that may be left out. -/
def chosen {α : Type} (g : Getter α) (default : α) : Option Value → Option α
  | some v => g.get v
  | none => some default

section Getters

variable {α : Type} (g : Getter α) (default : α) (v : Value)

@[simp] theorem chosen_some : chosen g default (some v) = g.get v := rfl
@[simp] theorem chosen_none : chosen g default none = some default := rfl

/-- A member that is encoded as the getter reads it. -/
theorem chosen_given {β : Type} {encode : β → Value} {decode : β → α}
    (h : ∀ x, g.get (encode x) = some (decode x)) (value : Option β) :
    chosen g default (value.map encode) = some ((value.map decode).getD default) := by
  cases value with
  | none => rfl
  | some x => exact h x

end Getters

@[simp] theorem get_string (s : String) : Getter.string.get (.string s) = some (cString s) := rfl
@[simp] theorem get_bool (b : Bool) : Getter.bool.get (.bool b) = some b := rfl
@[simp] theorem get_array (values : List Value) :
    Getter.array.get (.array values) = some values := rfl

@[simp] theorem get_number (x : Number) : Getter.number.get x.value = some x.double := by
  cases x <;> rfl

theorem get_int64 (n : Long) : Getter.int64.get (ofLong n) = some n.val := by
  have h := n.property
  unfold InInt64 at h
  exact if_pos (by simpa using h)

theorem get_uint64 (n : UInt64) : Getter.uint64.get (ofUInt64 n) = some n := by
  have h := n.toNat_lt
  simp [Getter.uint64, Value.getUint64, ofUInt64]
  omega

theorem get_uint (n : UInt32) : Getter.uint.get (ofUInt32 n) = some n := by
  have h := n.toNat_lt
  simp [Getter.uint, Value.getUint, ofUInt32]
  omega

@[simp] theorem chosen_string (value : Option String) (default : String) :
    chosen Getter.string default (value.map .string) = some (text value default) :=
  chosen_given _ _ get_string value

@[simp] theorem chosen_bool (value : Option Bool) (default : Bool) :
    chosen Getter.bool default (value.map .bool) = some (value.getD default) := by
  simpa using chosen_given Getter.bool default get_bool value

@[simp] theorem chosen_int64 (value : Option Long) (default : Int) :
    chosen Getter.int64 default (value.map ofLong) = some (number value default) :=
  chosen_given _ _ get_int64 value

@[simp] theorem chosen_uint64 (value : Option UInt64) (default : UInt64) :
    chosen Getter.uint64 default (value.map ofUInt64) = some (value.getD default) := by
  simpa using chosen_given Getter.uint64 default get_uint64 value

@[simp] theorem chosen_uint (value : Option UInt32) (default : UInt32) :
    chosen Getter.uint default (value.map ofUInt32) = some (value.getD default) := by
  simpa using chosen_given Getter.uint default get_uint value

end Reading

/-- Every name of the table is found. -/
theorem map_found {name : String} {method : HttpMethod} {f : FunctionTy}
    (h : (name, method, f) ∈ functionNameMap) : findFunction (bytes name) = some (method, f) := by
  have hall : ∀ entry ∈ functionNameMap, findFunction (bytes entry.1) = some entry.2 := by
    decide +kernel
  exact hall (name, method, f) h

/-- The server has a function of the name, and serves it for `POST`. -/
theorem method_found (m : Method) :
    findFunction (bytes m.posts.functionName) = some (.hmPost, m.function) := by
  apply map_found
  cases m <;>
    simp only [Method.posts, Method.function, functionNameMap, List.mem_cons, true_or, or_true]

end PoolClient
