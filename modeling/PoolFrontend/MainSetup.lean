import PoolFrontend.SortedSearch

/-!
# Setting up the pool

`main` from the parsed document to the HTTP server. The pool core, the host lookup, the
machine and the library's sort are given by an environment; what is handed to the core is kept
as data.
-/
namespace MainSetup

open Json Poolcore Config

/-- An error return is the text that is logged; a violated precondition is `none`. -/
abbrev Setup := ExceptT String Option

/-- `gethostbyname` may fail, its host may have no address, and an address is a word. -/
structure Environment where
  hardwareConcurrency : UInt32
  userHomeDir : String
  joinPath : String → String → String
  gethostbyname : String → Option (Option UInt64)
  coinLibrary : String → CoinInfo
  helpers : Server.Helpers
  sort : SortedSearch.NameSort
  poolInstanceFabric : List CoinInfo → String → String → Nat → Nat → Value → Bool

structure PoolBackendConfig where
  isMaster : Bool
  dbPath : String
  defaultPayoutThreshold : Int
  minimalAllowedPayout : Int
  requiredConfirmations : UInt32
  keepRoundTime : UInt64
  keepStatsTime : UInt64
  confirmationsCheckInterval : UInt64
  payoutInterval : UInt64
  balanceCheckInterval : UInt64
  miningAddresses : List CMiningAddressConfig
  coinBaseMsg : String
  poolZAddr : String
  poolTAddr : String
  deriving DecidableEq, Repr

inductive NetworkClient where
  | bitcoinRpc : (threadsNum : UInt32) → (node : CNodeConfig) → NetworkClient
  | ethereumRpc : (threadsNum : UInt32) → (address : String) → PoolBackendConfig → NetworkClient
  deriving DecidableEq, Repr

/-- A statistic server is the position it was created at. -/
structure PoolBackend where
  config : PoolBackendConfig
  coinInfo : CoinInfo
  getWorkClients : List NetworkClient
  rpcClients : List NetworkClient
  profitSwitchCoeff : Option Double
  algoMetaStatistic : Nat
  deriving DecidableEq, Repr

structure PoolInstance where
  linkedBackends : List PoolBackend
  algoMetaStatistic : Option Nat
  deriving DecidableEq, Repr

structure HostAddress where
  ipv4 : UInt32
  port : UInt16
  deriving DecidableEq, Repr

structure HttpServerArguments where
  port : UInt16
  threadsNum : UInt32
  deriving DecidableEq, Repr

structure PoolContext where
  isMaster : Bool
  databasePath : String
  smtpAddress : Option HostAddress
  coinList : List CoinInfo
  backends : List PoolBackend
  algoMetaStatistic : List CoinInfo
  threadPool : UInt32
  totalThreadsNum : UInt32
  instances : List PoolInstance
  httpServer : HttpServerArguments
  deriving DecidableEq, Repr

def isSpace (c : Char) : Bool := c = ' ' || 9 ≤ c.toNat && c.toNat ≤ 13

def digitsValue (digits : List Char) : Nat :=
  digits.foldl (fun n c => 10 * n + (c.toNat - 48)) 0

/-- The value of a text that does not fit an `int` is undefined. -/
def atoi (text : List Char) : Option Int :=
  let number := text.dropWhile isSpace
  let value : Int := match number with
    | '-' :: rest => -digitsValue (rest.takeWhile Char.isDigit)
    | '+' :: rest => digitsValue (rest.takeWhile Char.isDigit)
    | rest => digitsValue (rest.takeWhile Char.isDigit)
  if -2 ^ 31 ≤ value ∧ value < 2 ^ 31 then some value else none

def htons (port : UInt16) : UInt16 := port <<< 8 ||| port >>> 8

/-- The address of the mail server; a host that was not found is logged and used. -/
def smtpAddress (env : Environment) (smtpServer : String) : Setup HostAddress := do
  let name := smtpServer.toList.takeWhile (· ≠ ':')
  match smtpServer.toList.dropWhile (· ≠ ':') with
  | [] => throw ("Invalid server " ++ smtpServer ++ "\nIt must have address:port format")
  | _ :: port =>
    let host ← liftM (env.gethostbyname (String.ofList name))
    let addr := host.getD 0
    if addr = 0 then
      throw ("Cannot retrieve address of " ++ String.ofList name ++
        " (gethostbyname returns 0)")
    let number ← liftM (atoi port)
    return { ipv4 := addr.toUInt32, port := htons (UInt16.ofInt number) }

def enableSmtp (env : Environment) (config : CPoolFrontendConfig) :
    Setup (Option HostAddress) :=
  if config.smtpEnabled then some <$> smtpAddress env config.smtpServer else return none

def lookupCoin (env : Environment) (coin : CCoinConfig) : Setup CoinInfo := do
  let coinInfo := env.coinLibrary coin.name
  if coinInfo.name = "" then
    throw ("Unknown coin: " ++ coin.name)
  return coinInfo

/-- The products are of unsigned 32-bit numbers; only their results are widened. -/
def backendParameters (env : Environment) (isMaster : Bool) (databasePath poolName : String)
    (coinConfig : CCoinConfig) (coinInfo : CoinInfo) : Setup PoolBackendConfig := do
  let some defaultPayoutThreshold :=
      env.helpers.parseMoneyValue coinConfig.defaultPayoutThreshold coinInfo.rationalPartSize
    | throw ("Can't load 'defaultPayoutThreshold' from " ++ coinConfig.name ++ " coin config")
  let some minimalAllowedPayout :=
      env.helpers.parseMoneyValue coinConfig.minimalAllowedPayout coinInfo.rationalPartSize
    | throw ("Can't load 'minimalPayout' from " ++ coinConfig.name ++ " coin config")
  if coinConfig.requiredConfirmations < coinInfo.minimalConfirmationsNumber then
    throw ("Minimal required confirmations for " ++ coinInfo.name ++ " is " ++
      toString coinInfo.minimalConfirmationsNumber)
  else match coinConfig.miningAddresses.find? fun addr =>
      !env.helpers.checkAddress coinInfo addr.address coinInfo.payoutAddressType with
  | some addr => throw ("Invalid mining address: " ++ addr.address)
  | none =>
    return {
      isMaster
      dbPath := env.joinPath databasePath coinInfo.name
      defaultPayoutThreshold
      minimalAllowedPayout
      requiredConfirmations := coinConfig.requiredConfirmations
      keepRoundTime := (coinConfig.keepRoundTime * 24 * 3600).toUInt64
      keepStatsTime := (coinConfig.keepStatsTime * 60).toUInt64
      confirmationsCheckInterval :=
        (coinConfig.confirmationsCheckInterval * 60 * 1000000).toUInt64
      payoutInterval := (coinConfig.payoutInterval * 60 * 1000000).toUInt64
      balanceCheckInterval := (coinConfig.balanceCheckInterval * 60 * 1000000).toUInt64
      miningAddresses := coinConfig.miningAddresses
      coinBaseMsg := if coinConfig.coinbaseMsg = "" then poolName else coinConfig.coinbaseMsg
      poolZAddr := coinConfig.poolZAddr
      poolTAddr := coinConfig.poolTAddr }

def createClient (totalThreadsNum : UInt32) (backendConfig : PoolBackendConfig)
    (node : CNodeConfig) : Setup NetworkClient :=
  if node.type = "bitcoinrpc" then
    return .bitcoinRpc totalThreadsNum node
  else if node.type = "ethereumrpc" then
    return .ethereumRpc totalThreadsNum node.address backendConfig
  else
    throw ("Unknown node type: " ++ node.type)

/-- The statistic servers created so far, and which algorithm each of them serves. -/
structure AlgoServers where
  knownAlgo : List (String × Nat) := []
  algoMetaStatistic : List CoinInfo := []
  deriving DecidableEq, Repr

/-- The server of the coin's algorithm, created with the first coin that has it. -/
def algoServer (env : Environment) (coinInfo : CoinInfo) (servers : AlgoServers) :
    Setup (Nat × AlgoServers) :=
  match servers.knownAlgo.lookup coinInfo.algorithm with
  | some server => return (server, servers)
  | none => do
    let algoInfo := env.coinLibrary coinInfo.algorithm
    if algoInfo.name = "" then
      throw ("Coin " ++ coinInfo.name ++ " has unknown algorithm: " ++ coinInfo.algorithm)
    let server := servers.algoMetaStatistic.length
    return (server, {
      knownAlgo := (coinInfo.algorithm, server) :: servers.knownAlgo
      algoMetaStatistic := servers.algoMetaStatistic ++ [algoInfo] })

section Backends

variable (env : Environment) (isMaster : Bool) (databasePath poolName : String)
  (totalThreadsNum : UInt32)

/-- The body of the loop over the coins. -/
def initBackend (coinConfig : CCoinConfig) (coinInfo : CoinInfo) (servers : AlgoServers) :
    Setup (PoolBackend × AlgoServers) := do
  let config ← backendParameters env isMaster databasePath poolName coinConfig coinInfo
  let getWorkClients ← coinConfig.getWorkNodes.mapM (createClient totalThreadsNum config)
  let rpcClients ← coinConfig.rpcNodes.mapM (createClient totalThreadsNum config)
  let profitSwitchCoeff :=
    if coinConfig.profitSwitchCoeff ≠ .finite 0 then some coinConfig.profitSwitchCoeff else none
  let (algoMetaStatistic, servers) ← algoServer env coinInfo servers
  return ({ config, coinInfo, getWorkClients, rpcClients, profitSwitchCoeff, algoMetaStatistic },
    servers)

def initBackends : List (CCoinConfig × CoinInfo) → AlgoServers →
    Setup (List PoolBackend × AlgoServers)
  | [], servers => return ([], servers)
  | (coinConfig, coinInfo) :: rest, servers => do
    let (backend, servers) ←
      initBackend env isMaster databasePath poolName totalThreadsNum coinConfig coinInfo servers
    let (backends, servers) ← initBackends rest servers
    return (backend :: backends, servers)

end Backends

def linkBackend (backends : List PoolBackend) (instanceName linkedCoinName : String) :
    Setup PoolBackend :=
  match Server.findByName (fun backend => backend.coinInfo.name) backends linkedCoinName with
  | some backend => return backend
  | none => throw ("Instance " ++ instanceName ++ " linked with non-existent coin " ++
      linkedCoinName)

/-- The loop over the linked backends; the last one's statistic server stays. -/
def attachBackends (instanceName : String) :
    List PoolBackend → (algo : String) → Option Nat → Setup (Option Nat)
  | [], _, server => return server
  | linkedBackend :: rest, algo, _ => do
    if algo ≠ "" ∧ linkedBackend.coinInfo.algorithm ≠ algo then
      throw ("Linked backends with different algorithms (" ++ algo ++ " and " ++
        linkedBackend.coinInfo.algorithm ++ ") to one instance " ++ instanceName)
    attachBackends instanceName rest linkedBackend.coinInfo.algorithm
      (some linkedBackend.algoMetaStatistic)

def initInstance (env : Environment) (backends : List PoolBackend) (instIdxE : Nat)
    (instanceConfig : CInstanceConfig) (instIdx : Nat) : Setup PoolInstance := do
  let linkedBackends ← instanceConfig.backends.mapM (linkBackend backends instanceConfig.name)
  if !env.poolInstanceFabric (linkedBackends.map PoolBackend.coinInfo) instanceConfig.type
      instanceConfig.protocol instIdx instIdxE instanceConfig.instanceConfig then
    throw ("Can't create instance with type '" ++ instanceConfig.type ++ "' and prorotol '" ++
      instanceConfig.protocol ++ "'")
  let algoMetaStatistic ← attachBackends instanceConfig.name linkedBackends "" none
  return { linkedBackends, algoMetaStatistic }

def databasePath (env : Environment) (dbPath : String) : String :=
  if dbPath.startsWith "~/" || dbPath.startsWith "~\\" then
    env.joinPath env.userHomeDir (dbPath.drop 2).toString
  else dbPath

/-- The worker threads when the configuration leaves their number open. -/
def workerThreads (env : Environment) (configured : UInt32) : UInt32 :=
  if configured ≠ 0 then configured
  else if env.hardwareConcurrency ≠ 0 then env.hardwareConcurrency / 4 else 2

def httpThreads (configured : UInt32) : UInt32 := if configured = 0 then 1 else configured

def totalThreads (env : Environment) (config : CPoolFrontendConfig) : UInt32 :=
  1 + workerThreads env config.workerThreadsNum + UInt32.ofNat config.coins.length * 2 +
    httpThreads config.httpThreadsNum + 1

/-- The coins, their backends as they were created, and the statistic servers. -/
structure Core where
  coinList : List CoinInfo
  backends : List PoolBackend
  servers : AlgoServers
  deriving DecidableEq, Repr

def initCore (env : Environment) (config : CPoolFrontendConfig) : Setup Core := do
  let coinList ← config.coins.mapM (lookupCoin env)
  let (backends, servers) ← initBackends env config.isMaster
    (databasePath env config.dbPath) config.poolName (totalThreads env config)
    (config.coins.zip coinList) {}
  return { coinList, backends, servers }

def sortByName (env : Environment) (backends : List PoolBackend) : List PoolBackend :=
  env.sort.apply (fun backend => backend.coinInfo.name) backends

/-- Everything after the load. -/
def setUp (env : Environment) (config : CPoolFrontendConfig) : Setup PoolContext := do
  let smtpAddress ← enableSmtp env config
  let core ← initCore env config
  let backends := sortByName env core.backends
  let instances ← config.instances.zipIdx.mapM fun (instanceConfig, instIdx) =>
    initInstance env backends config.instances.length instanceConfig instIdx
  return {
    isMaster := config.isMaster
    databasePath := databasePath env config.dbPath
    smtpAddress
    coinList := core.coinList
    backends
    algoMetaStatistic := core.servers.algoMetaStatistic
    threadPool := workerThreads env config.workerThreadsNum
    totalThreadsNum := totalThreads env config
    instances
    httpServer := {
      port := config.httpPort.toUInt16
      threadsNum := httpThreads config.httpThreadsNum } }

/-- From the parsed document; `config` is the record as declared, before the load. -/
def main (env : Environment) (config : CPoolFrontendConfig) (document : Value) :
    Setup PoolContext := do
  let (loaded, config, error) ← liftM (config.load document "")
  if !loaded then
    throw error
  setUp env config

/-- A step after another completes when both do. -/
theorem bind_completes {α β : Type} {p : Setup α} {q : α → Setup β} {y : β}
    (h : p >>= q = pure y) : ∃ x, p = pure x ∧ q x = pure y := by
  cases p with
  | none => cases h
  | some outcome =>
    cases outcome with
    | error message => cases h
    | ok x => exact ⟨x, rfl, h⟩

theorem throw_completes {α : Type} {message : String} {x : α}
    (h : (throw message : Setup α) = pure x) : False := by
  cases h

theorem lift_completes {α : Type} {o : Option α} {x : α} (h : (liftM o : Setup α) = pure x) :
    o = some x := by
  cases o with
  | none => cases h
  | some y =>
    cases h
    rfl

theorem mapM_completes {α β : Type} {f : α → Setup β} {xs : List α} {ys : List β}
    (h : xs.mapM f = pure ys) : List.Forall₂ (fun x y => f x = pure y) xs ys := by
  induction xs generalizing ys with
  | nil =>
    cases h
    exact .nil
  | cons x xs ih =>
    rw [List.mapM_cons] at h
    obtain ⟨y, hy, h⟩ := bind_completes h
    obtain ⟨rest, hrest, h⟩ := bind_completes h
    cases h
    exact .cons hy (ih hrest)

end MainSetup
