import PoolFrontend.RecordedCalls
import PoolFrontend.SetUpOutcome

/-!
# What the set-up asks of the pool core

`main` from the parsed document, with the calls it makes to the user manager, the price fetcher,
the backends, the statistic servers and the instances. An error leaves the calls made so far.
-/
namespace SetUpCalls

open Json Config Poolcore MainSetup NumericSettings SetupWiring ConfigSections SetUpOutcome
  RecordedCalls

inductive ESpecialUser where
  | specialUserAdmin
  | specialUserObserver
  deriving DecidableEq, Repr

/-- A backend is called by the place of its coin, an instance by its own. -/
inductive CoreCall where
  | newUserManager (databasePath : String)
  | setBaseCfg (poolName poolHostProtocol poolHostAddress poolActivateLinkPrefix
      poolChangePasswordLinkPrefix poolActivate2faLinkPrefix poolDeactivate2faLinkPrefix : String)
  | addSpecialUser (user : ESpecialUser) (passwordHash : String)
  | enableSMTP (serverAddress : HostAddress) (login password senderAddress : String)
      (useSmtps useStartTls : Bool)
  | newPriceFetcher (coinList : List CoinInfo)
  | newClientDispatcher (coinIdx : Nat) (coinInfo : CoinInfo) (threadsNum : UInt32)
  | addGetWorkClient (coinIdx : Nat) (client : NetworkClient)
  | addRPCClient (coinIdx : Nat) (client : NetworkClient)
  | newPoolBackend (coinIdx : Nat) (config : PoolBackendConfig) (coinInfo : CoinInfo)
  | setProfitSwitchCoeff (coinIdx : Nat) (profitSwitchCoeff : Double)
  | configAddCoin (coinInfo : CoinInfo) (defaultPayoutThreshold : Int)
  | newStatisticServer (dbPath : String) (algoInfo : CoinInfo)
  | backendStatistic (coinIdx server : Nat)
  | newMiningStats
  | newThreadPool (threadsNum : UInt32)
  | newInstance (linkedBackends : List CoinInfo) (type protocol : String) (instIdx instIdxE : Nat)
      (instanceConfig : Value)
  | setComplexMiningStats (instIdx : Nat)
  | connectWith (linkedBackend : PoolBackend) (instIdx : Nat)
  | instanceStatistic (instIdx server : Nat)
  deriving Repr

/-- A set-up that records its calls and may stop with an error. -/
abbrev Calling := Recorded CoreCall String

def setBaseCfg (config : CPoolFrontendConfig) : CoreCall :=
  .setBaseCfg config.poolName config.poolHostProtocol config.poolHostAddress
    config.poolActivateLinkPrefix config.poolChangePasswordLinkPrefix
    config.poolActivate2faLinkPrefix config.poolDeactivate2faLinkPrefix

/-- The administrator and the observer exist if they have a password. -/
def addSpecialUser (user : ESpecialUser) (passwordHash : String) : Calling Unit :=
  if passwordHash ≠ "" then call (.addSpecialUser user passwordHash) else pure ()

def enableSMTP (config : CPoolFrontendConfig) (address : HostAddress) : CoreCall :=
  .enableSMTP address config.smtpLogin config.smtpPassword config.smtpSenderAddress
    config.smtpUseSmtps config.smtpUseStartTls

/-- An address that cannot be resolved stops the start before the call. -/
def initSMTP (env : Environment) (config : CPoolFrontendConfig) : Calling (Option HostAddress) :=
  if config.smtpEnabled then do
    let address ← silently (smtpAddress env config.smtpServer)
    call (enableSMTP config address)
    return some address
  else return none

section Backends

variable (env : Environment) (isMaster : Bool) (databasePath poolName : String)
  (totalThreadsNum : UInt32)

def addClient (add : NetworkClient → CoreCall) (backendConfig : PoolBackendConfig)
    (node : CNodeConfig) : Calling NetworkClient := do
  let client ← silently (MainSetup.createClient totalThreadsNum backendConfig node)
  call (add client)
  return client

/-- A server that is created has no more than a place for its data. -/
def algoServer (coinInfo : CoinInfo) (servers : AlgoServers) : Calling (Nat × AlgoServers) :=
  match servers.knownAlgo.lookup coinInfo.algorithm with
  | some server => return (server, servers)
  | none => do
    let created ← silently (MainSetup.algoServer env coinInfo servers)
    let algoInfo := env.coinLibrary coinInfo.algorithm
    call (.newStatisticServer (env.joinPath databasePath algoInfo.name) algoInfo)
    return created

def setProfitSwitchCoeff (coinIdx : Nat) : Option Double → Calling Unit
  | some coeff => call (.setProfitSwitchCoeff coinIdx coeff)
  | none => pure ()

/-- The threshold is read from the record that the backend has been given. -/
def initBackend (coinIdx : Nat) (coinConfig : CCoinConfig) (coinInfo : CoinInfo)
    (servers : AlgoServers) : Calling (PoolBackend × AlgoServers) := do
  let config ←
    silently (backendParameters env isMaster databasePath poolName coinConfig coinInfo)
  call (.newClientDispatcher coinIdx coinInfo totalThreadsNum)
  let getWorkClients ←
    coinConfig.getWorkNodes.mapM (addClient totalThreadsNum (.addGetWorkClient coinIdx) config)
  let rpcClients ←
    coinConfig.rpcNodes.mapM (addClient totalThreadsNum (.addRPCClient coinIdx) config)
  call (.newPoolBackend coinIdx config coinInfo)
  let profitSwitchCoeff :=
    if coinConfig.profitSwitchCoeff ≠ .finite 0 then some coinConfig.profitSwitchCoeff else none
  setProfitSwitchCoeff coinIdx profitSwitchCoeff
  call (.configAddCoin coinInfo config.defaultPayoutThreshold)
  let (algoMetaStatistic, servers) ← algoServer env databasePath coinInfo servers
  call (.backendStatistic coinIdx algoMetaStatistic)
  return ({ config, coinInfo, getWorkClients, rpcClients, profitSwitchCoeff, algoMetaStatistic },
    servers)

/-- The loop over the coins; a coin is called by its place in the configuration. -/
def initBackends : Nat → List (CCoinConfig × CoinInfo) → AlgoServers →
    Calling (List PoolBackend × AlgoServers)
  | _, [], servers => return ([], servers)
  | coinIdx, (coinConfig, coinInfo) :: rest, servers => do
    let (backend, servers) ← initBackend env isMaster databasePath poolName totalThreadsNum
      coinIdx coinConfig coinInfo servers
    let (backends, servers) ← initBackends (coinIdx + 1) rest servers
    return (backend :: backends, servers)

end Backends

section Instances

variable (instanceName : String) (instIdx : Nat)

def attachBackends : List PoolBackend → (algo : String) → Option Nat → Calling (Option Nat)
  | [], _, server => return server
  | linkedBackend :: rest, algo, _ =>
    if algo ≠ "" ∧ linkedBackend.coinInfo.algorithm ≠ algo then
      throw ("Linked backends with different algorithms (" ++ algo ++ " and " ++
        linkedBackend.coinInfo.algorithm ++ ") to one instance " ++ instanceName)
    else do
      call (.connectWith linkedBackend instIdx)
      call (.instanceStatistic instIdx linkedBackend.algoMetaStatistic)
      attachBackends rest linkedBackend.coinInfo.algorithm (some linkedBackend.algoMetaStatistic)

end Instances

def initInstance (env : Environment) (backends : List PoolBackend) (instIdxE : Nat)
    (instanceConfig : CInstanceConfig) (instIdx : Nat) : Calling PoolInstance := do
  let linkedBackends ←
    silently (instanceConfig.backends.mapM (linkBackend backends instanceConfig.name))
  call (.newInstance (linkedBackends.map PoolBackend.coinInfo) instanceConfig.type
    instanceConfig.protocol instIdx instIdxE instanceConfig.instanceConfig)
  if !env.poolInstanceFabric (linkedBackends.map PoolBackend.coinInfo) instanceConfig.type
      instanceConfig.protocol instIdx instIdxE instanceConfig.instanceConfig then
    throw ("Can't create instance with type '" ++ instanceConfig.type ++ "' and prorotol '" ++
      instanceConfig.protocol ++ "'")
  else
    call (.setComplexMiningStats instIdx)
    let algoMetaStatistic ←
      attachBackends instanceConfig.name instIdx linkedBackends "" none
    return { linkedBackends, algoMetaStatistic }

def initCore (env : Environment) (config : CPoolFrontendConfig) : Calling Core := do
  let coinList ← silently (config.coins.mapM (lookupCoin env))
  call (.newPriceFetcher coinList)
  let (backends, servers) ← initBackends env config.isMaster
    (databasePath env config.dbPath) config.poolName (totalThreads env config) 0
    (config.coins.zip coinList) {}
  return { coinList, backends, servers }

/-- Everything after the load. -/
def setUp (env : Environment) (config : CPoolFrontendConfig) : Calling PoolContext := do
  call (.newUserManager (databasePath env config.dbPath))
  call (setBaseCfg config)
  addSpecialUser .specialUserAdmin config.adminPasswordHash
  addSpecialUser .specialUserObserver config.observerPasswordHash
  let smtpAddress ← initSMTP env config
  let core ← initCore env config
  let backends := sortByName env core.backends
  call .newMiningStats
  call (.newThreadPool (workerThreads env config.workerThreadsNum))
  let instances ← config.instances.zipIdx.mapM fun entry =>
    initInstance env backends config.instances.length entry.1 entry.2
  return {
    isMaster := config.isMaster
    databasePath := databasePath env config.dbPath
    smtpAddress
    coinList := core.coinList
    backends
    algoMetaStatistic := core.servers.algoMetaStatistic
    threadPool := workerThreads env config.workerThreadsNum
    totalThreadsNum := totalThreads env config
    instances
    httpServer := {
      port := config.httpPort.toUInt16
      threadsNum := httpThreads config.httpThreadsNum } }

def main (env : Environment) (config : CPoolFrontendConfig) (document : Value) :
    Calling PoolContext := do
  let (loaded, config, error) ← silently (liftM (config.load document ""))
  if !loaded then throw error else setUp env config

section Erase

variable (env : Environment) (isMaster : Bool) (databasePath poolName : String)
  (totalThreadsNum : UInt32)

/-- Without its calls each part is the part of the set-up that has no record. -/
theorem erase_addClient (add : NetworkClient → CoreCall) (backendConfig : PoolBackendConfig)
    (node : CNodeConfig) : erase (addClient totalThreadsNum add backendConfig node) =
      MainSetup.createClient totalThreadsNum backendConfig node := by
  simp [addClient]

theorem erase_algoServer (coinInfo : CoinInfo) (servers : AlgoServers) :
    erase (algoServer env databasePath coinInfo servers) =
      MainSetup.algoServer env coinInfo servers := by
  unfold algoServer
  cases hlookup : servers.knownAlgo.lookup coinInfo.algorithm with
  | some server => simp [MainSetup.algoServer, hlookup]
  | none => simp

theorem erase_initBackend (coinIdx : Nat) (coinConfig : CCoinConfig) (coinInfo : CoinInfo)
    (servers : AlgoServers) :
    erase (initBackend env isMaster databasePath poolName totalThreadsNum coinIdx coinConfig
      coinInfo servers) =
    MainSetup.initBackend env isMaster databasePath poolName totalThreadsNum coinConfig coinInfo
      servers := by
  have hcoeff : ∀ coeff, erase (setProfitSwitchCoeff coinIdx coeff) = pure () := by
    intro coeff
    cases coeff <;> rfl
  simp [initBackend, MainSetup.initBackend, erase_addClient, erase_algoServer, hcoeff]

theorem erase_initBackends (coinIdx : Nat) (coins : List (CCoinConfig × CoinInfo))
    (servers : AlgoServers) :
    erase (initBackends env isMaster databasePath poolName totalThreadsNum coinIdx coins
      servers) =
    MainSetup.initBackends env isMaster databasePath poolName totalThreadsNum coins servers := by
  induction coins generalizing coinIdx servers with
  | nil => rfl
  | cons coin coins ih =>
    simp [initBackends, MainSetup.initBackends, erase_initBackend, ih]

theorem erase_attachBackends (instanceName : String) (instIdx : Nat) (linked : List PoolBackend)
    (algo : String) (server : Option Nat) :
    erase (attachBackends instanceName instIdx linked algo server) =
      MainSetup.attachBackends instanceName linked algo server := by
  induction linked generalizing algo server with
  | nil => rfl
  | cons first rest ih =>
    unfold attachBackends MainSetup.attachBackends
    split <;> simp [ih]

theorem erase_initInstance (backends : List PoolBackend) (instIdxE : Nat)
    (instanceConfig : CInstanceConfig) (instIdx : Nat) :
    erase (initInstance env backends instIdxE instanceConfig instIdx) =
      MainSetup.initInstance env backends instIdxE instanceConfig instIdx := by
  simp only [initInstance, MainSetup.initInstance, erase_bind, erase_silently, erase_call,
    erase_ite, erase_throw, erase_attachBackends, erase_pure, pure_bind]
  rfl

theorem erase_setUp (config : CPoolFrontendConfig) :
    erase (setUp env config) = MainSetup.setUp env config := by
  have hspecial : ∀ user hash, erase (addSpecialUser user hash) = pure () := by
    intro user hash
    simp [addSpecialUser]
  have hmail : erase (initSMTP env config) = enableSmtp env config := by
    unfold initSMTP enableSmtp
    split <;> simp
  have hcore : erase (initCore env config) = MainSetup.initCore env config := by
    simp [initCore, MainSetup.initCore, erase_initBackends]
  simp [setUp, MainSetup.setUp, hspecial, hmail, hcore, erase_initInstance]

theorem erase_main (config : CPoolFrontendConfig) (document : Value) :
    erase (main env config document) = MainSetup.main env config document := by
  simp only [main, MainSetup.main, erase_bind, erase_silently, erase_ite, erase_throw,
    erase_setUp]
  rfl

end Erase

section Calls

variable (env : Environment) (config : CPoolFrontendConfig)

def specialUserCalls (user : ESpecialUser) (passwordHash : String) : List CoreCall :=
  if passwordHash ≠ "" then [.addSpecialUser user passwordHash] else []

/-- No call without mail. -/
def mailCalls : List CoreCall := (mailOf env config).toList.map (enableSMTP config)

/-- A server for an algorithm that no coin has had before. -/
def serverCalls (algorithms : List String) (algorithm : String) : List CoreCall :=
  if algorithm ∈ algorithms then []
  else [.newStatisticServer
    (env.joinPath (databasePath env config.dbPath) (env.coinLibrary algorithm).name)
    (env.coinLibrary algorithm)]

def coinCalls (coinIdx : Nat) (algorithms : List String) (coin : CCoinConfig) (b : PoolBackend) :
    List CoreCall :=
  [.newClientDispatcher coinIdx b.coinInfo (totalThreads env config)] ++
    b.getWorkClients.map (.addGetWorkClient coinIdx) ++
    b.rpcClients.map (.addRPCClient coinIdx) ++
    [.newPoolBackend coinIdx b.config b.coinInfo] ++
    b.profitSwitchCoeff.toList.map (.setProfitSwitchCoeff coinIdx) ++
    [.configAddCoin b.coinInfo b.config.defaultPayoutThreshold] ++
    serverCalls env config algorithms (infoOf env coin).algorithm ++
    [.backendStatistic coinIdx b.algoMetaStatistic]

/-- The coins in their order, with the algorithms that have had a coin before. -/
def coinsCalls : Nat → List String → List CCoinConfig → List CoreCall
  | _, _, [] => []
  | coinIdx, algorithms, coin :: coins =>
    let known := addAlgorithm algorithms (infoOf env coin).algorithm
    coinCalls env config coinIdx algorithms coin (backendOf env config known coin) ++
      coinsCalls (coinIdx + 1) known coins

def connectCalls (instIdx : Nat) (linked : List PoolBackend) : List CoreCall :=
  linked.flatMap fun b => [.connectWith b instIdx, .instanceStatistic instIdx b.algoMetaStatistic]

def instanceCalls (backends : List PoolBackend) (instIdxE : Nat)
    (instanceConfig : CInstanceConfig) (instIdx : Nat) : List CoreCall :=
  [.newInstance ((linkedOf backends instanceConfig).map PoolBackend.coinInfo) instanceConfig.type
      instanceConfig.protocol instIdx instIdxE instanceConfig.instanceConfig,
    .setComplexMiningStats instIdx] ++ connectCalls instIdx (linkedOf backends instanceConfig)

/-- The one list: the parts of `main` from the user manager to the last instance. -/
def callsOf : List CoreCall :=
  [.newUserManager (databasePath env config.dbPath), setBaseCfg config] ++
    specialUserCalls .specialUserAdmin config.adminPasswordHash ++
    specialUserCalls .specialUserObserver config.observerPasswordHash ++
    mailCalls env config ++
    [.newPriceFetcher (config.coins.map (infoOf env))] ++
    coinsCalls env config 0 [] config.coins ++
    [.newMiningStats, .newThreadPool (workerThreads env config.workerThreadsNum)] ++
    config.instances.zipIdx.flatMap fun entry =>
      instanceCalls (backendsOf env config) config.instances.length entry.1 entry.2

/-- Each part makes its calls of the list, or stops after some of them. -/
theorem addSpecialUser_makes (user : ESpecialUser) (passwordHash : String) :
    Makes (addSpecialUser user passwordHash) () (specialUserCalls user passwordHash) := by
  unfold addSpecialUser specialUserCalls
  split
  · exact makes_call _
  · exact makes_pure ()

theorem initSMTP_makes :
    Makes (initSMTP env config) (mailOf env config) (mailCalls env config) := by
  unfold initSMTP mailCalls mailOf
  cases config.smtpEnabled with
  | false => exact makes_pure none
  | true =>
    apply makes_silently (fun address h => ((smtpAddress_iff env config address).mp h).2.2.2) _
      (List.cons_ne_nil _ _)
    exact makes_call_bind (makes_pure _)

theorem addClient_makes (add : NetworkClient → CoreCall) (parameters : PoolBackendConfig)
    (node : CNodeConfig) :
    Makes (addClient (totalThreads env config) add parameters node)
      (clientOf env config parameters node) [add (clientOf env config parameters node)] := by
  have hclient : ∀ client,
      MainSetup.createClient (totalThreads env config) parameters node = pure client →
        client = clientOf env config parameters node := by
    intro client h
    exact ((createClient_iff env config parameters node client).mp h).2
  apply makes_silently hclient _ (List.cons_ne_nil _ _)
  exact makes_call_bind (makes_pure _)

theorem addClients_makes (add : NetworkClient → CoreCall) (parameters : PoolBackendConfig)
    (nodes : List CNodeConfig) :
    Makes (nodes.mapM (addClient (totalThreads env config) add parameters))
      (nodes.map (clientOf env config parameters))
      ((nodes.map (clientOf env config parameters)).map add) := by
  have hcalls : (nodes.map (clientOf env config parameters)).map add =
      nodes.flatMap fun node => [add (clientOf env config parameters node)] := by
    rw [List.map_map]
    exact List.map_eq_flatMap
  rw [hcalls]
  exact makes_mapM (addClient_makes env config add parameters) nodes

theorem algoServer_makes {algorithms : List String} (h : algorithms.Nodup) (info : CoinInfo) :
    Makes (algoServer env (databasePath env config.dbPath) info (serversOf env algorithms))
      ((addAlgorithm algorithms info.algorithm).idxOf info.algorithm,
        serversOf env (addAlgorithm algorithms info.algorithm))
      (serverCalls env config algorithms info.algorithm) := by
  have hserver : ∀ result,
      MainSetup.algoServer env info (serversOf env algorithms) = pure result →
        result = ((addAlgorithm algorithms info.algorithm).idxOf info.algorithm,
          serversOf env (addAlgorithm algorithms info.algorithm)) := by
    intro result hresult
    exact ((algoServer_iff env h info result).mp hresult).2
  unfold algoServer serverCalls
  rw [lookup_serversOf env h]
  by_cases hmem : info.algorithm ∈ algorithms
  · rw [if_pos hmem, if_pos hmem, addAlgorithm, if_pos hmem]
    exact makes_pure _
  · rw [if_neg hmem, if_neg hmem]
    apply makes_silently hserver _ (List.cons_ne_nil _ _)
    exact makes_call_bind (makes_pure _)

theorem initBackend_makes {algorithms : List String} (h : algorithms.Nodup) (coinIdx : Nat)
    (coin : CCoinConfig) :
    Makes (initBackend env config.isMaster (databasePath env config.dbPath) config.poolName
        (totalThreads env config) coinIdx coin (infoOf env coin) (serversOf env algorithms))
      (backendOf env config (addAlgorithm algorithms (infoOf env coin).algorithm) coin,
        serversOf env (addAlgorithm algorithms (infoOf env coin).algorithm))
      (coinCalls env config coinIdx algorithms coin
        (backendOf env config (addAlgorithm algorithms (infoOf env coin).algorithm) coin)) := by
  have hcoeff : ∀ coeff, Makes (setProfitSwitchCoeff coinIdx coeff) ()
      (coeff.toList.map (.setProfitSwitchCoeff coinIdx)) := by
    intro coeff
    cases coeff with
    | none => exact makes_pure ()
    | some coeff => exact makes_call _
  have hparameters : ∀ parameters, backendParameters env config.isMaster
      (databasePath env config.dbPath) config.poolName coin (infoOf env coin) = pure parameters →
        parameters = parametersOf env config coin := by
    intro parameters hresult
    exact ((backendParameters_iff env config coin parameters).mp hresult).2
  unfold initBackend
  simp only [coinCalls, List.append_assoc, List.cons_append, List.nil_append]
  apply makes_silently hparameters _ (List.cons_ne_nil _ _)
  refine makes_call_bind ?_
  refine makes_bind (addClients_makes env config _ _ _) ?_
  refine makes_bind (addClients_makes env config _ _ _) ?_
  refine makes_call_bind ?_
  refine makes_bind (hcoeff _) ?_
  refine makes_call_bind ?_
  refine makes_bind (algoServer_makes env config h _) ?_
  exact makes_call_bind (makes_pure _)

theorem initBackends_makes {algorithms : List String} (h : algorithms.Nodup) (coinIdx : Nat)
    (coins : List CCoinConfig) :
    Makes (initBackends env config.isMaster (databasePath env config.dbPath) config.poolName
        (totalThreads env config) coinIdx (coins.map fun coin => (coin, infoOf env coin))
        (serversOf env algorithms))
      (coins.map (backendOf env config (algorithmsOf env algorithms coins)),
        serversOf env (algorithmsOf env algorithms coins))
      (coinsCalls env config coinIdx algorithms coins) := by
  induction coins generalizing coinIdx algorithms with
  | nil => exact makes_pure _
  | cons coin coins ih =>
    have hfirst : backendOf env config (algorithmsOf env algorithms (coin :: coins)) coin =
        backendOf env config (addAlgorithm algorithms (infoOf env coin).algorithm) coin :=
      backendOf_grows env config (algorithmsOf_grows env _ coins)
        (mem_addAlgorithm.mpr (.inr rfl))
    rw [List.map_cons, List.map_cons, initBackends, coinsCalls, hfirst]
    refine makes_bind (initBackend_makes env config h coinIdx coin) ?_
    rw [← List.append_nil (coinsCalls _ _ _ _ _)]
    exact makes_bind (ih (addAlgorithm_nodup h _) (coinIdx + 1)) (makes_pure _)

theorem attachBackends_makes (instanceName : String) (instIdx : Nat) (linked : List PoolBackend)
    (algo : String) (server : Option Nat) :
    Makes (attachBackends instanceName instIdx linked algo server)
      ((linked.getLast?.map PoolBackend.algoMetaStatistic).or server)
      (connectCalls instIdx linked) := by
  induction linked generalizing algo server with
  | nil => exact makes_pure server
  | cons first rest ih =>
    have hlast : ((first :: rest).getLast?.map PoolBackend.algoMetaStatistic).or server =
        (rest.getLast?.map PoolBackend.algoMetaStatistic).or (some first.algoMetaStatistic) := by
      cases rest with
      | nil => rfl
      | cons second others => simp [List.getLast?_cons]
    rw [attachBackends, hlast]
    refine makes_check (fun _ => ?_) (List.cons_ne_nil _ _)
    exact makes_call_bind (makes_call_bind (ih _ _))

theorem initInstance_makes {backends : List PoolBackend}
    (hsorted : backends.Pairwise fun l r => l.coinInfo.name ≤ r.coinInfo.name) (instIdxE : Nat)
    (instanceConfig : CInstanceConfig) (instIdx : Nat) :
    Makes (initInstance env backends instIdxE instanceConfig instIdx)
      (instanceOf backends instanceConfig)
      (instanceCalls backends instIdxE instanceConfig instIdx) := by
  have hlinked : ∀ linked, instanceConfig.backends.mapM
      (linkBackend backends instanceConfig.name) = pure linked →
        linked = linkedOf backends instanceConfig := by
    intro linked hresult
    exact ((mapM_found (linkBackend_iff hsorted instanceConfig.name) _ linked).mp hresult).2
  unfold initInstance
  rw [instanceCalls, List.cons_append, List.cons_append, List.nil_append]
  apply makes_silently hlinked _ (List.cons_ne_nil _ _)
  refine makes_call_bind ?_
  refine makes_check (fun _ => ?_) (List.cons_ne_nil _ _)
  refine makes_call_bind ?_
  rw [← List.append_nil (connectCalls _ _)]
  refine makes_bind (attachBackends_makes _ _ _ _ _) ?_
  rw [Option.or_none]
  exact makes_pure _

theorem initCore_makes : Makes (initCore env config) (coreOf env config)
    (.newPriceFetcher (config.coins.map (infoOf env)) ::
      coinsCalls env config 0 [] config.coins) := by
  have hinfos : ∀ infos, config.coins.mapM (lookupCoin env) = pure infos →
      infos = config.coins.map (infoOf env) := by
    intro infos hresult
    exact ((mapM_known (lookupCoin_iff env) config.coins infos).mp hresult).2
  unfold initCore
  apply makes_silently hinfos _ (List.cons_ne_nil _ _)
  refine makes_call_bind ?_
  rw [zip_infos, ← List.append_nil (coinsCalls _ _ _ _ _)]
  exact makes_bind (initBackends_makes env config List.nodup_nil 0 config.coins) (makes_pure _)

theorem setUp_makes : Makes (setUp env config) (poolOf env config) (callsOf env config) := by
  have hinstances := makes_mapM (fun entry : CInstanceConfig × Nat =>
    initInstance_makes env (sortByName_sorted env (coreOf env config).backends)
      config.instances.length entry.1 entry.2)
    config.instances.zipIdx
  have hall : config.instances.zipIdx.map (fun entry =>
      instanceOf (backendsOf env config) entry.1) =
        config.instances.map (instanceOf (backendsOf env config)) := by
    rw [← Function.comp_def, ← List.map_map, List.zipIdx_map_fst]
  rw [hall] at hinstances
  unfold setUp
  simp only [callsOf, List.append_assoc, List.cons_append, List.nil_append]
  refine makes_call_bind (makes_call_bind ?_)
  refine makes_bind (addSpecialUser_makes _ _) (makes_bind (addSpecialUser_makes _ _) ?_)
  refine makes_bind (initSMTP_makes env config) ?_
  rw [← List.cons_append]
  refine makes_bind (initCore_makes env config) ?_
  refine makes_call_bind (makes_call_bind ?_)
  rw [← List.append_nil (List.flatMap _ _)]
  exact makes_bind hinstances (makes_pure _)

/-- Whatever becomes of a start, it is the set-up, and what it has called by then is the first
part of one list that the configuration determines: all of it exactly if the start completes, and
nothing if there is no configuration. -/
theorem start_calls {document : Value} {result : Except String PoolContext}
    {made : List CoreCall} (h : Ends (main env (declared config) document) result made) :
    MainSetup.main env (declared config) document = ExceptT.mk (some result) ∧
    (∀ loaded, ofObject (configMembers Getter.string) document = some loaded →
      made <+: callsOf env loaded ∧
        (made = callsOf env loaded ↔ ∃ context, result = .ok context)) ∧
    (ofObject (configMembers Getter.string) document = none → made = []) := by
  refine ⟨(erase_main env (declared config) document).symm.trans (ends_erase h), ?_⟩
  have hsafe : DocumentSafe document := by
    by_contra hunsafe
    rw [main, load_aborts config hunsafe ""] at h
    cases h
  obtain ⟨accepted, loaded, error, hrun, hend⟩ := load_ends config hsafe ""
  have hmain : main env (declared config) document =
      if !accepted then throw error else setUp env loaded := by
    rw [main, hrun]
    exact pure_bind _ _
  rw [hmain] at h
  obtain ⟨rfl, hconfig⟩ | ⟨rfl, hnone⟩ := hend
  · rw [hconfig]
    refine ⟨?_, nofun⟩
    rintro loaded' hsame
    cases hsame
    exact (setUp_makes env loaded).prefix_iff h
  · rw [hnone]
    refine ⟨nofun, fun _ => ?_⟩
    cases h
    rfl

/-- A coin whose threshold is not an amount: the price fetcher has been made, and no backend. -/
theorem start_calls_unpriced : ∃ e made,
    Ends (main { sampleEnvironment with helpers := Server.emptyServer.helpers }
      (declared {}) (sampleDocument 7)) (.error e) made ∧
    (∀ loaded, ofObject (configMembers Getter.string) (sampleDocument 7) = some loaded →
      made ≠ callsOf { sampleEnvironment with helpers := Server.emptyServer.helpers } loaded) := by
  obtain ⟨e, made, h⟩ : ∃ e made, Ends (main { sampleEnvironment with
      helpers := Server.emptyServer.helpers } (declared {}) (sampleDocument 7)) (.error e) made :=
    ⟨_, _, rfl⟩
  refine ⟨e, made, h, fun loaded hloaded hall => ?_⟩
  obtain ⟨context, hcontext⟩ := (((start_calls _ _ h).2.1 loaded hloaded).2).mp hall
  cases hcontext

end Calls
end SetUpCalls
