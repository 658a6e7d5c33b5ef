import PoolFrontend.CallbackProgram
import PoolFrontend.Json

/-!
# The interface of the pool core

Records exchanged with the user manager, the accounting, the statistic and the
mining-stats service, and the calls the HTTP front end makes on them. The core
itself is not part of this repository: a call is only its arguments and the type
of its answer. Unsigned and signed counts in answers are integers.
-/
namespace Poolcore

open CallbackProgram Json

/-- The identity of an object of the core, in place of a pointer to it. -/
abbrev Handle := Nat

structure CoinInfo where
  name : String
  fullName : String
  algorithm : String
  rationalPartSize : Int
  extraMultiplier : Int
  payoutAddressType : Nat
  powerMultLog10 : Int
  minimalConfirmationsNumber : UInt32 := 0
  deriving DecidableEq, Repr

structure Credentials where
  login : String := ""
  password : String := ""
  name : String := ""
  eMail : String := ""
  twoFactor : String := ""
  isActive : Bool := false
  isReadOnly : Bool := false
  feePlan : String := ""
  registrationDate : Int := 0
  hasTwoFactor : Bool := false
  deriving DecidableEq, Repr

structure UserWithAccessRights where
  login : String := ""
  isReadOnly : Bool := false
  deriving DecidableEq, Repr

structure UserSettingsRecord where
  login : String
  coin : String
  address : String
  minimalPayout : Int
  autoPayout : Bool
  deriving DecidableEq, Repr

structure UserFeePair where
  userId : String
  percentage : Double
  deriving DecidableEq, Repr

abbrev UserFeeConfig := List UserFeePair

structure CoinSpecificFeeRecord where
  coinName : String
  config : UserFeeConfig
  deriving DecidableEq, Repr

structure UserFeePlanRecord where
  feePlanId : String
  default : UserFeeConfig
  coinSpecificFee : List CoinSpecificFeeRecord
  deriving DecidableEq, Repr

structure UserBalanceInfo where
  balance : Int
  requested : Int
  paid : Int
  queued : Int
  deriving DecidableEq, Repr

structure FoundBlockRecord where
  height : Int
  publicHash : String
  hash : String
  time : Int
  availableCoins : Int
  foundBy : String
  deriving DecidableEq, Repr

structure PayoutDbRecord where
  time : Int
  transactionId : String
  value : Int
  status : Int
  deriving DecidableEq, Repr

structure CPPLNSPayout where
  roundStartTime : Int
  roundEndTime : Int
  blockHash : String
  blockHeight : Int
  payoutValue : Int
  rateToBTC : Double
  rateBTCToUSD : Double
  deriving DecidableEq, Repr

structure CPPLNSPayoutAcc where
  intervalEnd : Int
  totalCoin : Int
  totalBTC : Int
  totalUSD : Double
  avgHashRate : Int
  deriving DecidableEq, Repr

structure CStats where
  workerId : String
  time : Int
  clientsNum : Int
  workersNum : Int
  sharesPerSecond : Double
  sharesWork : Double
  averagePower : Int
  lastShareTime : Int
  deriving DecidableEq, Repr

def emptyStats : CStats := ⟨"", 0, 0, 0, .finite 0, .finite 0, 0, 0⟩

structure CredentialsWithStatistic where
  credentials : Credentials
  workersNum : Int
  sharesPerSecond : Double
  averagePower : Int
  lastShareTime : Int
  deriving DecidableEq, Repr

/-- `StatisticDb::CredentialsWithStatistic::EColumns` -/
inductive EColumns where
  | login | workersNum | averagePower | sharesPerSecond | lastShareTime
  deriving DecidableEq, Repr

inductive EStatsColumn where
  | name | averagePower | sharesPerSecond | lastShareTime
  deriving DecidableEq, Repr

inductive Call where
  -- user manager, answered in place
  | validateSession (id targetLogin : String) (needWriteAccess : Bool)
  | getUserCredentials (login : String)
  | getUserCoinSettings (login coin : String)
  | enumerateFeePlan (sessionId : String)
  | getFeePlan (sessionId feePlanId : String)
  -- user manager, answered to a callback
  | userAction (actionId newPassword totp : String)
  | userCreate (login : String) (credentials : Credentials)
  | userResendEmail (credentials : Credentials)
  | userLogin (credentials : Credentials)
  | userLogout (id : String)
  | userQueryMonitoringSession (id targetLogin : String)
  | userChangePasswordInitiate (login : String)
  | userChangePasswordForce (id login newPassword : String)
  | updateCredentials (id targetLogin : String) (credentials : Credentials)
  | updateSettings (settings : UserSettingsRecord) (totp : String)
  | enumerateUsers (sessionId : String)
  | updateFeePlan (sessionId : String) (record : UserFeePlanRecord)
  | changeFeePlan (sessionId targetLogin feePlanId : String)
  | activate2faInitiate (sessionId targetLogin : String)
  | deactivate2faInitiate (sessionId targetLogin : String)
  -- accounting
  | manualPayout (accounting : Handle) (login : String)
  | queryUserBalance (accounting : Handle) (login : String)
  | queryUserBalanceMulti (accountings : List Handle) (login : String)
  | queryFoundBlocks (accounting : Handle) (heightFrom : Int) (hashFrom : String) (count : UInt32)
  | queryPPLNSPayouts (accounting : Handle) (login : String) (timeFrom : Int) (hashFrom : String)
      (count : UInt32)
  | queryPPLNSAcc (accounting : Handle) (login : String) (timeFrom timeTo groupByInterval : Int)
  | poolLuck (accounting : Handle) (intervals : List Int)
  -- backend
  | queryPayouts (backend : Handle) (login : String) (timeFrom : UInt64) (count : UInt32)
  | getProfitSwitchCoeff (backend : Handle)
  | setProfitSwitchCoeff (backend : Handle) (coeff : Double)
  -- statistic
  | queryAllusersStats (statistic : Handle) (users : List Credentials) (offset size : UInt64)
      (column : EColumns) (sortDescending : Bool)
  | queryUserStats (statistic : Handle) (login : String) (offset size : UInt64)
      (column : EStatsColumn) (sortDescending : Bool)
  | getHistory (statistic : Handle) (login worker : String)
      (timeFrom timeTo groupByInterval : Int)
  | queryPoolStats (statistic : Handle)
  | queryPoolStatsMulti (statistics : List Handle)
  -- mining stats and the clock
  | miningStats (document : Value)
  | time

/-- One answer per database, in the order of the databases asked. That the core returns as many
of them is assumed here. -/
abbrev PerDatabase (α : Type) (databases : List Handle) :=
  { answers : List α // answers.length = databases.length }

/-- What the core answers. It returns the found blocks and their confirmations as two vectors;
they are assumed to be of one length, and are one list of pairs. -/
@[reducible] def Answer : Call → Type
  | .validateSession .. => Option UserWithAccessRights
  | .getUserCredentials .. => Option Credentials
  | .getUserCoinSettings .. => Option UserSettingsRecord
  | .enumerateFeePlan .. => Except String (List UserFeePlanRecord)
  | .getFeePlan .. => Except String UserFeePlanRecord
  | .userLogin .. => String × String × Bool
  | .userQueryMonitoringSession .. => String × String
  | .enumerateUsers .. => String × List Credentials
  | .activate2faInitiate .. => String × String
  | .queryUserBalance .. => UserBalanceInfo
  | .queryUserBalanceMulti databases _ => PerDatabase UserBalanceInfo databases
  | .queryFoundBlocks .. => List (FoundBlockRecord × Int)
  | .queryPPLNSPayouts .. => List CPPLNSPayout
  | .queryPPLNSAcc .. => List CPPLNSPayoutAcc
  | .poolLuck .. => List Double
  | .queryPayouts .. => List PayoutDbRecord
  | .getProfitSwitchCoeff .. => Double
  | .setProfitSwitchCoeff .. => Unit
  | .queryAllusersStats .. => List CredentialsWithStatistic
  | .queryUserStats .. => CStats × List CStats
  | .getHistory .. => List CStats
  | .queryPoolStats .. => CStats
  | .queryPoolStatsMulti databases => PerDatabase CStats databases
  | .miningStats .. => List UInt8
  | .time => Int
  -- every other operation answers its callback with a status
  | _ => String

/-- The answer of a core that knows nothing. -/
def emptyAnswer : (c : Call) → Answer c
  | .validateSession .. | .getUserCredentials .. | .getUserCoinSettings .. => none
  | .enumerateFeePlan .. | .getFeePlan .. => .error ""
  | .userLogin .. => ("", "", false)
  | .userQueryMonitoringSession .. | .activate2faInitiate .. => ("", "")
  | .enumerateUsers .. => ("", [])
  | .queryUserBalance .. => ⟨0, 0, 0, 0⟩
  | .queryUserBalanceMulti databases _ => ⟨List.replicate databases.length ⟨0, 0, 0, 0⟩, by simp⟩
  | .queryFoundBlocks .. | .queryPPLNSPayouts .. | .queryPPLNSAcc .. | .poolLuck .. => []
  | .queryPayouts .. | .queryAllusersStats .. | .getHistory .. | .miningStats .. => []
  | .getProfitSwitchCoeff .. => .finite 0
  | .setProfitSwitchCoeff .. => ()
  | .queryUserStats .. => (emptyStats, [])
  | .queryPoolStats .. => emptyStats
  | .queryPoolStatsMulti databases => ⟨List.replicate databases.length emptyStats, by simp⟩
  | .time => 0
  | .userAction .. | .userCreate .. | .userResendEmail .. | .userLogout .. => ""
  | .userChangePasswordInitiate .. | .userChangePasswordForce .. | .updateCredentials .. => ""
  | .updateSettings .. | .updateFeePlan .. | .changeFeePlan .. | .deactivate2faInitiate .. => ""
  | .manualPayout .. => ""

end Poolcore
