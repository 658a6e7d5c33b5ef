import PoolFrontend.MachineInt
import PoolFrontend.RequestFields

/-!
# The backend, instance and mining-stats endpoints

Laid out as `UserHandlers`. Replies are built by definitions of their own, so that
a handler shows its checks and the calls it makes.
-/
namespace BackendHandlers

open CallbackProgram Json MachineInt Poolcore Server RequestFields

variable (server : PoolHttpServer) (ms : Members)

/-- The values a reply cannot carry are replaced by zero. -/
def fnormalize : Double → Double
  | .finite q => .finite q
  | .infinite _ => .finite 0
  | .nan => .finite 0

def balanceObject (coinInfo : CoinInfo) (record : UserBalanceInfo) : Value := .object [
  ("coin", .string coinInfo.name),
  ("balance", .string (server.helpers.formatMoney
    (server.helpers.getRational record.balance coinInfo.extraMultiplier)
    coinInfo.rationalPartSize)),
  ("requested", .string (server.helpers.formatMoney record.requested coinInfo.rationalPartSize)),
  ("paid", .string (server.helpers.formatMoney record.paid coinInfo.rationalPartSize)),
  ("queued", .string (server.helpers.formatMoney record.queued coinInfo.rationalPartSize))]

def workerStatsObject (worker : CStats) : Value := .object [
  ("name", .string worker.workerId),
  ("shareRate", .double worker.sharesPerSecond),
  ("shareWork", .double worker.sharesWork),
  ("power", .int worker.averagePower),
  ("lastShareTime", .int worker.lastShareTime)]

def userStatsReply (coinInfo : CoinInfo) (currentTime : Int) (aggregate : CStats)
    (workers : List CStats) : Members := [
  ("status", .string "ok"),
  ("powerUnit", .string (server.helpers.getPowerUnitName coinInfo)),
  ("powerMultLog10", .int coinInfo.powerMultLog10),
  ("currentTime", .int currentTime),
  ("total", .object [
    ("clients", .int aggregate.clientsNum),
    ("workers", .int aggregate.workersNum),
    ("shareRate", .double aggregate.sharesPerSecond),
    ("shareWork", .double aggregate.sharesWork),
    ("power", .int aggregate.averagePower),
    ("lastShareTime", .int aggregate.lastShareTime)]),
  ("workers", .array (workers.map workerStatsObject))]

/-- One point of the grid. -/
def historyObject (stats : CStats) : Value := .object [
  ("name", .string stats.workerId),
  ("time", .int stats.time),
  ("shareRate", .double stats.sharesPerSecond),
  ("shareWork", .double stats.sharesWork),
  ("power", .int stats.averagePower)]

def historyReply (coinInfo : CoinInfo) (currentTime : Int) (stats : List CStats) : Members := [
  ("status", .string "ok"),
  ("powerUnit", .string (server.helpers.getPowerUnitName coinInfo)),
  ("powerMultLog10", .int coinInfo.powerMultLog10),
  ("currentTime", .int currentTime),
  ("stats", .array (stats.map historyObject))]

def coinObject (backend : PoolBackend) : Value := .object [
  ("name", .string backend.coinInfo.name),
  ("fullName", .string backend.coinInfo.fullName),
  ("algorithm", .string backend.coinInfo.algorithm),
  ("minimalPayout", .string (server.helpers.formatMoney backend.minimalAllowedPayout
    backend.coinInfo.rationalPartSize)),
  ("totalFee", .double (.finite 0))]

def blockObject (coinInfo : CoinInfo) (block : FoundBlockRecord) (confirmations : Int) : Value :=
  .object [
    ("height", .int block.height),
    ("hash", .string (if block.publicHash ≠ "" then block.publicHash else block.hash)),
    ("time", .int block.time),
    ("confirmations", .int confirmations),
    ("generatedCoins", .string (server.helpers.formatMoney block.availableCoins
      coinInfo.rationalPartSize)),
    ("foundBy", .string block.foundBy)]

def payoutObject (coinInfo : CoinInfo) (record : PayoutDbRecord) : Value := .object [
  ("time", .int record.time),
  ("txid", .string record.transactionId),
  ("value", .string (server.helpers.formatMoney record.value coinInfo.rationalPartSize)),
  ("status", .int record.status)]

/-- The members common to one coin and to all coins. -/
def poolStatsMembers (coinInfo : CoinInfo) (record : CStats) : Members := [
  ("coin", .string coinInfo.name),
  ("powerUnit", .string (server.helpers.getPowerUnitName coinInfo)),
  ("powerMultLog10", .int coinInfo.powerMultLog10),
  ("clients", .int record.clientsNum),
  ("workers", .int record.workersNum),
  ("shareRate", .double record.sharesPerSecond),
  ("shareWork", .double record.sharesWork),
  ("power", .int record.averagePower)]

def pplnsPayoutObject (coinInfo : CoinInfo) (payout : CPPLNSPayout) : Value := .object [
  ("startTime", .int payout.roundStartTime),
  ("endTime", .int payout.roundEndTime),
  ("hash", .string payout.blockHash),
  ("height", .int payout.blockHeight),
  ("value", .string (server.helpers.formatMoney payout.payoutValue coinInfo.rationalPartSize)),
  ("coinBtcRate", .double (fnormalize payout.rateToBTC)),
  ("btcUsdRate", .double (fnormalize payout.rateBTCToUSD))]

def pplnsAccObject (coinInfo : CoinInfo) (payout : CPPLNSPayoutAcc) : Value := .object [
  ("timeLabel", .int payout.intervalEnd),
  ("value", .string (server.helpers.formatMoney payout.totalCoin coinInfo.rationalPartSize)),
  ("valueBTC", .string (server.helpers.formatMoney payout.totalBTC 100000000)),
  ("valueUSD", .double (fnormalize payout.totalUSD)),
  ("avghashrate", .int payout.avgHashRate)]

def instanceObject (config : Config.CInstanceConfig) : Value := .object ([
  ("protocol", .string config.protocol),
  ("type", .string config.type),
  ("port", .int config.port.toNat),
  ("backends", .array (config.backends.map .string))] ++
  if config.protocol = "stratum" then [("shareDiff", .double config.stratumShareDiff)] else [])

/-- A reply of one list beside the status. -/
def replyList (name : String) (values : List Value) : Handler Unit :=
  replyObject [("status", .string "ok"), (name, .array values)]

@[simp] theorem replyList_apply (name : String) (values : List Value)
    (k : Unit → Program Http) : replyList name values k =
      .write (.reply200 (.json (.object [("status", .string "ok"), (name, .array values)])))
        (k ()) := rfl

/-- The callback of the accounting gets a status. -/
def onBackendManualPayout (document : Value) : Handler Unit :=
  withFields (sessionTargetCoin document) fun (sessionId, targetLogin, coin) => do
  let some login ← ask (.validateSession sessionId targetLogin true)
    | replyWithStatus "unknown_id"
  let some backend := server.backend coin | replyWithStatus "invalid_coin"
  answerLater (.manualPayout backend.accountingDb login.login) fun status =>
    replyWithStatus status

/-- The address of the first of all databases is taken whether or not there is one. -/
def onBackendQueryUserBalance (document : Value) : Handler Unit :=
  withFields (sessionTargetCoin document) fun (sessionId, targetLogin, coin) => do
  let some tokenInfo ← ask (.validateSession sessionId targetLogin false)
    | replyWithStatus "unknown_id"
  if coin ≠ "" then
    let some backend := server.backend coin | replyWithStatus "invalid_coin"
    answerLater (.queryUserBalance backend.accountingDb tokenInfo.login) fun record =>
      replyList "balances" [balanceObject server backend.coinInfo record]
  else
    objectIncrementReference
    let accountingDbs := server.backends.map PoolBackend.accountingDb
    let _ ← require accountingDbs.head?
    issue (.queryUserBalanceMulti accountingDbs tokenInfo.login) fun balanceData => do
      replyList "balances" (List.zipWith (fun (backend : PoolBackend) record =>
        balanceObject server backend.coinInfo record) server.backends balanceData.val)
      objectDecrementReference

/-- The columns `onBackendQueryUserStats` sorts by. -/
def statsColumn : String → Option EStatsColumn
  | "name" => some .name
  | "averagePower" => some .averagePower
  | "sharesPerSecond" => some .sharesPerSecond
  | "lastShareTime" => some .lastShareTime
  | _ => none

/-- The fields of `onBackendQueryUserStats`. -/
def userStatsFields (document : Value) :
    Parse (String × String × String × UInt64 × UInt64 × String × Option Bool) := do
  let sessionId ← jsonParseString document "id" ""
  let targetLogin ← jsonParseStringOr document "targetLogin" "" ""
  let coin ← jsonParseStringOr document "coin" "" ""
  let offset ← jsonParseUInt64Or document "offset" 0 0
  let size ← jsonParseUInt64Or document "size" 0 4096
  let sortBy ← jsonParseStringOr document "sortBy" "" "name"
  let sortDescending ← jsonParseUnsetBooleanOr document "sortDescending" none false
  return (sessionId, targetLogin, coin, offset, size, sortBy, sortDescending)

def userStatsMembers :
    Option (String × String × String × UInt64 × UInt64 × String × Bool) := do
  let sessionId ← string ms "id"
  let targetLogin ← stringOr ms "targetLogin" ""
  let coin ← stringOr ms "coin" ""
  let offset ← uint64Or ms "offset" 0
  let size ← uint64Or ms "size" 4096
  let sortBy ← stringOr ms "sortBy" "name"
  let sortDescending ← booleanOr ms "sortDescending" false
  return (sessionId, targetLogin, coin, offset, size, sortBy, sortDescending)

theorem reads_userStats :
    Reads (userStatsFields (.object ms))
      ((userStatsMembers ms).map fun (a, b, c, d, e, f, g) => (a, b, c, d, e, f, some g)) := by
  refine reads_congr (reads_bind (reads_string ms _ _) fun _ =>
    reads_bind (reads_stringOr ms _ _ _) fun _ => reads_bind (reads_stringOr ms _ _ _) fun _ =>
    reads_bind (reads_uint64Or ms _ _ _) fun _ => reads_bind (reads_uint64Or ms _ _ _) fun _ =>
    reads_bind (reads_stringOr ms _ _ _) fun _ =>
    reads_bind (reads_unsetBooleanOr ms _ _ _) fun _ => reads_pure _) ?_
  simp [userStatsMembers, Option.map_bind, Option.bind_map]

@[simp] theorem withFields_userStats
    (body : String × String × String × UInt64 × UInt64 × String × Option Bool → Handler Unit) :
    withFields (userStatsFields (.object ms)) body =
      accepted (userStatsMembers ms) fun (a, b, c, d, e, f, g) =>
        body (a, b, c, d, e, f, some g) := by
  rw [withFields_reads (reads_userStats ms) body, accepted_map]

def onBackendQueryUserStats (document : Value) : Handler Unit :=
  withFields (userStatsFields document)
    fun (sessionId, targetLogin, coin, offset, size, sortBy, sortDescending) => do
  let some column := statsColumn sortBy | replyWithStatus "unknown_column_name"
  let some tokenInfo ← ask (.validateSession sessionId targetLogin false)
    | replyWithStatus "unknown_id"
  let some statistic := server.statisticDb coin | replyWithStatus "invalid_coin"
  let sortDescending ← require sortDescending
  answerLater
    (.queryUserStats statistic.handle tokenInfo.login offset size column sortDescending)
    fun (aggregate, workers) => do
      let currentTime ← ask .time
      replyObject (userStatsReply server statistic.coinInfo currentTime aggregate workers)

/-- What the three history handlers do once their fields are read. -/
def queryStatsHistory (statistic : StatisticDb) (login worker : String)
    (timeFrom timeTo groupByInterval currentTime : Int) : Handler Unit := do
  let stats ← ask (.getHistory statistic.handle login worker timeFrom timeTo groupByInterval)
  replyObject (historyReply server statistic.coinInfo currentTime stats)

/-- The fields of `onBackendQueryUserStatsHistory`. -/
def userHistoryFields (document : Value) (currentTime : Int) :
    Parse ((String × String × String) × Option Int × Option Int × Option Int) := do
  let target ← sessionTargetCoin document
  let grid ← timeGrid document currentTime
  return (target, grid)

def userHistoryMembers (currentTime : Int) :
    Option ((String × String × String) × Int × Int × Int) := do
  let target ← sessionTargetCoinMembers ms
  let grid ← timeGridMembers ms currentTime
  return (target, grid)

theorem reads_userHistory (currentTime : Int) :
    Reads (userHistoryFields (.object ms) currentTime)
      ((userHistoryMembers ms currentTime).map fun (target, a, b, c) =>
        (target, some a, some b, some c)) := by
  refine reads_congr (reads_bind (reads_sessionTargetCoin ms) fun _ =>
    reads_bind (reads_timeGrid ms currentTime) fun _ => reads_pure _) ?_
  simp [userHistoryMembers, Option.map_bind, Option.bind_map]

@[simp] theorem withFields_userHistory (currentTime : Int)
    (body : (String × String × String) × Option Int × Option Int × Option Int → Handler Unit) :
    withFields (userHistoryFields (.object ms) currentTime) body =
      accepted (userHistoryMembers ms currentTime) fun (target, a, b, c) =>
        body (target, some a, some b, some c) := by
  rw [withFields_reads (reads_userHistory ms currentTime) body, accepted_map]

def onBackendQueryUserStatsHistory (document : Value) : Handler Unit := do
  let currentTime ← ask .time
  withFields (userHistoryFields document currentTime)
    fun ((sessionId, targetLogin, coin), timeFrom, timeTo, groupByInterval) => do
  let some tokenInfo ← ask (.validateSession sessionId targetLogin false)
    | replyWithStatus "unknown_id"
  let some statistic := server.statisticDb coin | replyWithStatus "invalid_coin"
  queryStatsHistory server statistic tokenInfo.login "" (← require timeFrom) (← require timeTo)
    (← require groupByInterval) currentTime

/-- The fields of `onBackendQueryWorkerStatsHistory`; coin and worker are required. -/
def workerHistoryFields (document : Value) (currentTime : Int) :
    Parse ((String × String × String × String) × Option Int × Option Int × Option Int) := do
  let sessionId ← jsonParseString document "id" ""
  let targetLogin ← jsonParseStringOr document "targetLogin" "" ""
  let coin ← jsonParseString document "coin" ""
  let workerId ← jsonParseString document "workerId" ""
  let grid ← timeGrid document currentTime
  return ((sessionId, targetLogin, coin, workerId), grid)

def workerHistoryMembers (currentTime : Int) :
    Option ((String × String × String × String) × Int × Int × Int) := do
  let sessionId ← string ms "id"
  let targetLogin ← stringOr ms "targetLogin" ""
  let coin ← string ms "coin"
  let workerId ← string ms "workerId"
  let grid ← timeGridMembers ms currentTime
  return ((sessionId, targetLogin, coin, workerId), grid)

theorem reads_workerHistory (currentTime : Int) :
    Reads (workerHistoryFields (.object ms) currentTime)
      ((workerHistoryMembers ms currentTime).map fun (target, a, b, c) =>
        (target, some a, some b, some c)) := by
  refine reads_congr (reads_bind (reads_string ms _ _) fun _ =>
    reads_bind (reads_stringOr ms _ _ _) fun _ => reads_bind (reads_string ms _ _) fun _ =>
    reads_bind (reads_string ms _ _) fun _ =>
    reads_bind (reads_timeGrid ms currentTime) fun _ => reads_pure _) ?_
  simp [workerHistoryMembers, Option.map_bind, Option.bind_map]

@[simp] theorem withFields_workerHistory (currentTime : Int)
    (body : (String × String × String × String) × Option Int × Option Int × Option Int →
      Handler Unit) :
    withFields (workerHistoryFields (.object ms) currentTime) body =
      accepted (workerHistoryMembers ms currentTime) fun (target, a, b, c) =>
        body (target, some a, some b, some c) := by
  rw [withFields_reads (reads_workerHistory ms currentTime) body, accepted_map]

def onBackendQueryWorkerStatsHistory (document : Value) : Handler Unit := do
  let currentTime ← ask .time
  withFields (workerHistoryFields document currentTime)
    fun ((sessionId, targetLogin, coin, workerId), timeFrom, timeTo, groupByInterval) => do
  let some tokenInfo ← ask (.validateSession sessionId targetLogin false)
    | replyWithStatus "unknown_id"
  let some statistic := server.statisticDb coin | replyWithStatus "invalid_coin"
  queryStatsHistory server statistic tokenInfo.login workerId (← require timeFrom)
    (← require timeTo) (← require groupByInterval) currentTime

/-- The backends in the order of the server. -/
def onBackendQueryCoins (_document : Value) : Handler Unit :=
  replyList "coins" (server.backends.map (coinObject server))

/-- The fields of `onBackendQueryFoundBlocks`. -/
def foundBlocksFields (document : Value) :
    Parse (String × Option Int × String × Option UInt32) := do
  let coin ← jsonParseString document "coin" ""
  let heightFrom ← jsonParseInt64Or document "heightFrom" none (-1)
  let hashFrom ← jsonParseStringOr document "hashFrom" "" ""
  let count ← jsonParseUIntOr document "count" none 20
  return (coin, heightFrom, hashFrom, count)

def foundBlocksMembers : Option (String × Int × String × UInt32) := do
  let coin ← string ms "coin"
  let heightFrom ← int64Or ms "heightFrom" (-1)
  let hashFrom ← stringOr ms "hashFrom" ""
  let count ← uintOr ms "count" 20
  return (coin, heightFrom, hashFrom, count)

theorem reads_foundBlocks :
    Reads (foundBlocksFields (.object ms))
      ((foundBlocksMembers ms).map fun (a, b, c, d) => (a, some b, c, some d)) := by
  refine reads_congr (reads_bind (reads_string ms _ _) fun _ =>
    reads_bind (reads_int64Or ms _ _ _) fun _ => reads_bind (reads_stringOr ms _ _ _) fun _ =>
    reads_bind (reads_uintOr ms _ _ _) fun _ => reads_pure _) ?_
  simp [foundBlocksMembers, Option.map_bind, Option.bind_map]

@[simp] theorem withFields_foundBlocks
    (body : String × Option Int × String × Option UInt32 → Handler Unit) :
    withFields (foundBlocksFields (.object ms)) body =
      accepted (foundBlocksMembers ms) fun (a, b, c, d) => body (a, some b, c, some d) := by
  rw [withFields_reads (reads_foundBlocks ms) body, accepted_map]

def onBackendQueryFoundBlocks (document : Value) : Handler Unit :=
  withFields (foundBlocksFields document) fun (coin, heightFrom, hashFrom, count) => do
  let some backend := server.backend coin | replyWithStatus "invalid_coin"
  let heightFrom ← require heightFrom
  let count ← require count
  answerLater (.queryFoundBlocks backend.accountingDb heightFrom hashFrom count) fun blocks =>
    replyList "blocks" (blocks.map fun (block, confirmations) =>
      blockObject server backend.coinInfo block confirmations)

/-- The fields of `onBackendQueryPayouts`. -/
def payoutsFields (document : Value) :
    Parse (String × String × String × UInt64 × Option UInt32) := do
  let sessionId ← jsonParseString document "id" ""
  let targetLogin ← jsonParseStringOr document "targetLogin" "" ""
  let coin ← jsonParseStringOr document "coin" "" ""
  let timeFrom ← jsonParseUInt64Or document "timeFrom" 0 0
  let count ← jsonParseUIntOr document "count" none 20
  return (sessionId, targetLogin, coin, timeFrom, count)

def payoutsMembers : Option (String × String × String × UInt64 × UInt32) := do
  let sessionId ← string ms "id"
  let targetLogin ← stringOr ms "targetLogin" ""
  let coin ← stringOr ms "coin" ""
  let timeFrom ← uint64Or ms "timeFrom" 0
  let count ← uintOr ms "count" 20
  return (sessionId, targetLogin, coin, timeFrom, count)

theorem reads_payouts :
    Reads (payoutsFields (.object ms))
      ((payoutsMembers ms).map fun (a, b, c, d, e) => (a, b, c, d, some e)) := by
  refine reads_congr (reads_bind (reads_string ms _ _) fun _ =>
    reads_bind (reads_stringOr ms _ _ _) fun _ => reads_bind (reads_stringOr ms _ _ _) fun _ =>
    reads_bind (reads_uint64Or ms _ _ _) fun _ => reads_bind (reads_uintOr ms _ _ _) fun _ =>
    reads_pure _) ?_
  simp [payoutsMembers, Option.map_bind, Option.bind_map]

@[simp] theorem withFields_payouts
    (body : String × String × String × UInt64 × Option UInt32 → Handler Unit) :
    withFields (payoutsFields (.object ms)) body =
      accepted (payoutsMembers ms) fun (a, b, c, d, e) => body (a, b, c, d, some e) := by
  rw [withFields_reads (reads_payouts ms) body, accepted_map]

def onBackendQueryPayouts (document : Value) : Handler Unit :=
  withFields (payoutsFields document) fun (sessionId, targetLogin, coin, timeFrom, count) => do
  let some tokenInfo ← ask (.validateSession sessionId targetLogin false)
    | replyWithStatus "unknown_id"
  let some backend := server.backend coin | replyWithStatus "invalid_coin"
  let records ← ask (.queryPayouts backend.handle tokenInfo.login timeFrom (← require count))
  replyList "payouts" (records.map (payoutObject server backend.coinInfo))

def onBackendQueryPoolBalance (_document : Value) : Handler Unit :=
  aioWrite (.reply200 (.text "\x7b\"error\": \"not implemented\"\x7d\n"))

/-- The reply about one coin has a last share time, the one about all coins has not. -/
def onBackendQueryPoolStats (document : Value) : Handler Unit :=
  withFields (jsonParseStringOr document "coin" "" "") fun coin => do
  if coin ≠ "" then
    let some statistic := server.statisticDb coin | replyWithStatus "invalid_coin"
    answerLater (.queryPoolStats statistic.handle) fun record => do
      let currentTime ← ask .time
      replyObject [
        ("status", .string "ok"),
        ("currentTime", .int currentTime),
        ("stats", .array [.object (poolStatsMembers server statistic.coinInfo record ++
          [("lastShareTime", .int record.lastShareTime)])])]
  else
    objectIncrementReference
    let statisticDbs := server.backends.map fun backend => backend.statisticDb.handle
    let _ ← require statisticDbs.head?
    issue (.queryPoolStatsMulti statisticDbs) fun stats => do
      replyList "stats" (List.zipWith (fun (backend : PoolBackend) record =>
        .object (poolStatsMembers server backend.coinInfo record)) server.backends stats.val)
      objectDecrementReference

/-- The fields of `onBackendQueryPoolStatsHistory`. -/
def poolHistoryFields (document : Value) (currentTime : Int) :
    Parse (String × Option Int × Option Int × Option Int) := do
  let coin ← jsonParseStringOr document "coin" "" ""
  let grid ← timeGrid document currentTime
  return (coin, grid)

def poolHistoryMembers (currentTime : Int) : Option (String × Int × Int × Int) := do
  let coin ← stringOr ms "coin" ""
  let grid ← timeGridMembers ms currentTime
  return (coin, grid)

theorem reads_poolHistory (currentTime : Int) :
    Reads (poolHistoryFields (.object ms) currentTime)
      ((poolHistoryMembers ms currentTime).map fun (coin, a, b, c) =>
        (coin, some a, some b, some c)) := by
  refine reads_congr (reads_bind (reads_stringOr ms _ _ _) fun _ =>
    reads_bind (reads_timeGrid ms currentTime) fun _ => reads_pure _) ?_
  simp [poolHistoryMembers, Option.map_bind, Option.bind_map]

@[simp] theorem withFields_poolHistory (currentTime : Int)
    (body : String × Option Int × Option Int × Option Int → Handler Unit) :
    withFields (poolHistoryFields (.object ms) currentTime) body =
      accepted (poolHistoryMembers ms currentTime) fun (coin, a, b, c) =>
        body (coin, some a, some b, some c) := by
  rw [withFields_reads (reads_poolHistory ms currentTime) body, accepted_map]

def onBackendQueryPoolStatsHistory (document : Value) : Handler Unit := do
  let currentTime ← ask .time
  withFields (poolHistoryFields document currentTime)
    fun (coin, timeFrom, timeTo, groupByInterval) => do
  let some statistic := server.statisticDb coin | replyWithStatus "invalid_coin"
  queryStatsHistory server statistic "" "" (← require timeFrom) (← require timeTo)
    (← require groupByInterval) currentTime

/-- The loop over the backends, each asked for its coefficient. -/
def profitSwitchCoeffs : List PoolBackend → Handler (List Value)
  | [] => return []
  | backend :: rest => do
    let coeff ← ask (.getProfitSwitchCoeff backend.handle)
    let coins ← profitSwitchCoeffs rest
    return .object [("name", .string backend.coinInfo.name), ("profitSwitchCoeff", .double coeff)]
      :: coins

def onBackendQueryProfitSwitchCoeff (document : Value) : Handler Unit :=
  withFields (jsonParseString document "id" "") fun sessionId => do
  let some tokenInfo ← ask (.validateSession sessionId "" false) | replyWithStatus "unknown_id"
  if tokenInfo.login ≠ "admin" ∧ tokenInfo.login ≠ "observer" then
    replyWithStatus "unknown_id"
  else
    let coins ← profitSwitchCoeffs server.backends
    replyList "coins" coins

/-- The fields of `onBackendQueryPPLNSPayouts`. -/
def pplnsPayoutsFields (document : Value) :
    Parse (String × String × String × Option Int × String × Option UInt32) := do
  let sessionId ← jsonParseString document "id" ""
  let targetLogin ← jsonParseStringOr document "targetLogin" "" ""
  let coin ← jsonParseString document "coin" ""
  let timeFrom ← jsonParseInt64Or document "timeFrom" none 0
  let hashFrom ← jsonParseStringOr document "hashFrom" "" ""
  let count ← jsonParseUIntOr document "count" none 20
  return (sessionId, targetLogin, coin, timeFrom, hashFrom, count)

def pplnsPayoutsMembers : Option (String × String × String × Int × String × UInt32) := do
  let sessionId ← string ms "id"
  let targetLogin ← stringOr ms "targetLogin" ""
  let coin ← string ms "coin"
  let timeFrom ← int64Or ms "timeFrom" 0
  let hashFrom ← stringOr ms "hashFrom" ""
  let count ← uintOr ms "count" 20
  return (sessionId, targetLogin, coin, timeFrom, hashFrom, count)

theorem reads_pplnsPayouts :
    Reads (pplnsPayoutsFields (.object ms))
      ((pplnsPayoutsMembers ms).map fun (a, b, c, d, e, f) => (a, b, c, some d, e, some f)) := by
  refine reads_congr (reads_bind (reads_string ms _ _) fun _ =>
    reads_bind (reads_stringOr ms _ _ _) fun _ => reads_bind (reads_string ms _ _) fun _ =>
    reads_bind (reads_int64Or ms _ _ _) fun _ => reads_bind (reads_stringOr ms _ _ _) fun _ =>
    reads_bind (reads_uintOr ms _ _ _) fun _ => reads_pure _) ?_
  simp [pplnsPayoutsMembers, Option.map_bind, Option.bind_map]

@[simp] theorem withFields_pplnsPayouts
    (body : String × String × String × Option Int × String × Option UInt32 → Handler Unit) :
    withFields (pplnsPayoutsFields (.object ms)) body =
      accepted (pplnsPayoutsMembers ms) fun (a, b, c, d, e, f) =>
        body (a, b, c, some d, e, some f) := by
  rw [withFields_reads (reads_pplnsPayouts ms) body, accepted_map]

def onBackendQueryPPLNSPayouts (document : Value) : Handler Unit :=
  withFields (pplnsPayoutsFields document)
    fun (sessionId, targetLogin, coin, timeFrom, hashFrom, count) => do
  let some tokenInfo ← ask (.validateSession sessionId targetLogin false)
    | replyWithStatus "unknown_id"
  let some backend := server.backend coin | replyWithStatus "invalid_coin"
  let timeFrom ← require timeFrom
  let count ← require count
  answerLater
    (.queryPPLNSPayouts backend.accountingDb tokenInfo.login timeFrom hashFrom count)
    fun result => replyList "payouts" (result.map (pplnsPayoutObject server backend.coinInfo))

/-- The check of the intervals in its short-circuit order; an undefined operation is
`none`. -/
def invalidInterval (timeFrom timeTo groupByInterval : Int) : Option Bool :=
  if timeTo ≤ timeFrom then some true
  else if groupByInterval = 0 then some true
  else do
    let remainder ← mod64 (← sub64 timeTo timeFrom) groupByInterval
    if remainder ≠ 0 then
      return true
    let intervals ← div64 (← sub64 timeTo timeFrom) groupByInterval
    return 3200 < intervals

/-- Only the difference can be undefined: it overflows from `2 ^ 63` on. -/
theorem invalidInterval_none_iff (timeFrom timeTo groupByInterval : Int) :
    invalidInterval timeFrom timeTo groupByInterval = none ↔
      groupByInterval ≠ 0 ∧ 2 ^ 63 ≤ timeTo - timeFrom := by
  unfold invalidInterval
  by_cases hle : timeTo ≤ timeFrom
  · rw [if_pos hle]
    simp only [reduceCtorEq, false_iff]
    omega
  · rw [if_neg hle]
    by_cases hzero : groupByInterval = 0
    · rw [if_pos hzero]
      simp [hzero]
    · rw [if_neg hzero]
      by_cases hfits : timeTo - timeFrom < 2 ^ 63
      · have hdifference : InInt64 (timeTo - timeFrom) := by
          unfold InInt64
          omega
        have hquotient := tdiv_inInt64 groupByInterval (by omega) hdifference
        have hmod : mod64 (timeTo - timeFrom) groupByInterval =
            some ((timeTo - timeFrom).tmod groupByInterval) := if_pos ⟨hzero, hquotient⟩
        have hdiv : div64 (timeTo - timeFrom) groupByInterval =
            some ((timeTo - timeFrom).tdiv groupByInterval) := if_pos ⟨hzero, hquotient⟩
        have hsub : sub64 timeTo timeFrom = some (timeTo - timeFrom) := if_pos hdifference
        simp only [hsub, hmod, hdiv, Option.bind_eq_bind, Option.bind_some]
        split
        · simp
          omega
        · simp
          omega
      · have hsub : sub64 timeTo timeFrom = none := if_neg (by
          unfold InInt64
          omega)
        simp [hsub, hzero]
        omega

/-- The fields of `onBackendQueryPPLNSAcc`. -/
def pplnsAccFields (document : Value) :
    Parse (String × String × String × Option Int × Option Int × Option Int) := do
  let sessionId ← jsonParseString document "id" ""
  let targetLogin ← jsonParseStringOr document "targetLogin" "" ""
  let coin ← jsonParseString document "coin" ""
  let timeFrom ← jsonParseInt64 document "timeFrom" none
  let timeTo ← jsonParseInt64 document "timeTo" none
  let groupByInterval ← jsonParseInt64 document "groupByInterval" none
  return (sessionId, targetLogin, coin, timeFrom, timeTo, groupByInterval)

def pplnsAccMembers : Option (String × String × String × Int × Int × Int) := do
  let sessionId ← string ms "id"
  let targetLogin ← stringOr ms "targetLogin" ""
  let coin ← string ms "coin"
  let timeFrom ← int64 ms "timeFrom"
  let timeTo ← int64 ms "timeTo"
  let groupByInterval ← int64 ms "groupByInterval"
  return (sessionId, targetLogin, coin, timeFrom, timeTo, groupByInterval)

theorem reads_pplnsAcc :
    Reads (pplnsAccFields (.object ms))
      ((pplnsAccMembers ms).map fun (a, b, c, d, e, f) => (a, b, c, some d, some e, some f)) := by
  refine reads_congr (reads_bind (reads_string ms _ _) fun _ =>
    reads_bind (reads_stringOr ms _ _ _) fun _ => reads_bind (reads_string ms _ _) fun _ =>
    reads_bind (reads_int64 ms _ _) fun _ => reads_bind (reads_int64 ms _ _) fun _ =>
    reads_bind (reads_int64 ms _ _) fun _ => reads_pure _) ?_
  simp [pplnsAccMembers, Option.map_bind, Option.bind_map]

@[simp] theorem withFields_pplnsAcc
    (body : String × String × String × Option Int × Option Int × Option Int → Handler Unit) :
    withFields (pplnsAccFields (.object ms)) body =
      accepted (pplnsAccMembers ms) fun (a, b, c, d, e, f) =>
        body (a, b, c, some d, some e, some f) := by
  rw [withFields_reads (reads_pplnsAcc ms) body, accepted_map]

def onBackendQueryPPLNSAcc (document : Value) : Handler Unit :=
  withFields (pplnsAccFields document)
    fun (sessionId, targetLogin, coin, timeFrom, timeTo, groupByInterval) => do
  let some tokenInfo ← ask (.validateSession sessionId targetLogin false)
    | replyWithStatus "unknown_id"
  let some backend := server.backend coin | replyWithStatus "invalid_coin"
  let timeFrom ← require timeFrom
  let timeTo ← require timeTo
  let groupByInterval ← require groupByInterval
  if ← require (invalidInterval timeFrom timeTo groupByInterval) then
    replyWithStatus "invalid_interval"
  else
    answerLater
      (.queryPPLNSAcc backend.accountingDb tokenInfo.login timeFrom timeTo groupByInterval)
      fun result => replyList "payouts" (result.map (pplnsAccObject server backend.coinInfo))

/-- The fields of `onBackendUpdateProfitSwitchCoeff`. -/
def profitSwitchCoeffFields (document : Value) :
    Parse (String × String × Double) := do
  let sessionId ← jsonParseString document "id" ""
  let coin ← jsonParseStringOr document "coin" "" ""
  let profitSwitchCoeff ← jsonParseNumber document "profitSwitchCoeff" (.finite 0)
  return (sessionId, coin, profitSwitchCoeff)

def profitSwitchCoeffMembers : Option (String × String × Double) := do
  let sessionId ← string ms "id"
  let coin ← stringOr ms "coin" ""
  let profitSwitchCoeff ← number ms "profitSwitchCoeff"
  return (sessionId, coin, profitSwitchCoeff)

theorem reads_profitSwitchCoeff :
    Reads (profitSwitchCoeffFields (.object ms)) (profitSwitchCoeffMembers ms) :=
  reads_bind (reads_string ms _ _) fun _ => reads_bind (reads_stringOr ms _ _ _) fun _ =>
  reads_bind (reads_number ms _ _) fun _ => reads_pure _

@[simp] theorem withFields_profitSwitchCoeff
    (body : String × String × Double → Handler Unit) :
    withFields (profitSwitchCoeffFields (.object ms)) body =
      accepted (profitSwitchCoeffMembers ms) body :=
  withFields_reads (reads_profitSwitchCoeff ms) body

def onBackendUpdateProfitSwitchCoeff (document : Value) : Handler Unit :=
  withFields (profitSwitchCoeffFields document) fun (sessionId, coin, profitSwitchCoeff) => do
  let some tokenInfo ← ask (.validateSession sessionId "" false) | replyWithStatus "unknown_id"
  if tokenInfo.login ≠ "admin" then
    replyWithStatus "unknown_id"
  else
    let some backend := server.backend coin | replyWithStatus "invalid_coin"
    ask (.setProfitSwitchCoeff backend.handle profitSwitchCoeff)
    replyWithStatus "ok"

/-- The loop over the intervals; `none` leaves the handler with `json_format_error`. -/
def luckIntervals : List Value → (prevInterval : Int) → (intervals : List Int) →
    Handler (Option (List Int))
  | [], _, intervals => return some intervals
  | value :: rest, prevInterval, intervals =>
    if !value.isInt64 then return none
    else do
      let interval ← require value.getInt64
      if interval ≤ prevInterval then return none
      else luckIntervals rest interval (intervals ++ [interval])

/-- This handler reads its two fields without the helpers. -/
def onBackendPoolLuck (document : Value) : Handler Unit := do
  if !(← require (document.memberIs Value.isString "coin")) then
    replyWithStatus "json_format_error"
  else if !(← require (document.memberIs Value.isArray "intervals")) then
    replyWithStatus "json_format_error"
  else
    let coin ← require ((document.member "coin").bind Getter.string.get)
    let some backend := server.backend coin | replyWithStatus "invalid_coin"
    let intervalsValue ← require ((document.member "intervals").bind Value.getArray)
    let some intervals ← luckIntervals intervalsValue 0 []
      | replyWithStatus "json_format_error"
    answerLater (.poolLuck backend.accountingDb intervals) fun result =>
      replyList "luck" (result.map .double)

/-- The instances of the configuration, from which the reply is made. -/
def onInstanceEnumerateAll (_document : Value) : Handler Unit :=
  replyList "instances" (server.config.instances.map instanceObject)

def onComplexMiningStatsGetInfo (document : Value) : Handler Unit :=
  withFields (jsonParseString document "id" "") fun sessionId => do
  let some tokenInfo ← ask (.validateSession sessionId "" false) | replyWithStatus "unknown_id"
  if tokenInfo.login ≠ "admin" then
    replyWithStatus "unknown_id"
  else
    answerLater (.miningStats document) fun data => aioWrite (.reply200 (.raw data))

end BackendHandlers
