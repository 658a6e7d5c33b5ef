import PoolFrontend.SetupWiring

/-!
# The thread plan

The threads are counted before the coins are set up, two for each coin: one for its backend
and one for the server of its algorithm, if it is the first coin that has it. The count is in
32 bits, and a quarter of fewer than four cores is no worker at all.
-/
namespace ThreadPlan

open Config Json MainSetup SetupWiring

/-- The thread count a client is created with. -/
def threadsNum : NetworkClient → UInt32
  | .bitcoinRpc threadsNum _ => threadsNum
  | .ethereumRpc threadsNum _ _ => threadsNum

section Plan

variable (env : Environment) (config : CPoolFrontendConfig)

/-- The loop over the coins after some of its rounds. -/
def AfterRounds (rounds : Nat) (backends : List PoolBackend) (servers : AlgoServers) : Prop :=
  ∃ coinList, config.coins.mapM (lookupCoin env) = pure coinList ∧
    initBackends env config.isMaster (databasePath env config.dbPath) config.poolName
      (totalThreads env config) ((config.coins.zip coinList).take rounds) {} =
        pure (backends, servers)

/-- The plan has a worker and an HTTP thread, its sum does not wrap, and after any number of
rounds it has a thread for each of those that are there, as it was told to the clients. -/
structure Sufficient : Prop where
  worker : 1 ≤ (workerThreads env config.workerThreadsNum).toNat
  http : 1 ≤ (httpThreads config.httpThreadsNum).toNat
  unwrapped : (totalThreads env config).toNat =
    1 + (workerThreads env config.workerThreadsNum).toNat + config.coins.length * 2 +
      (httpThreads config.httpThreadsNum).toNat + 1
  covers : ∀ rounds backends servers, AfterRounds env config rounds backends servers →
    1 + (workerThreads env config.workerThreadsNum).toNat + backends.length +
      servers.algoMetaStatistic.length + (httpThreads config.httpThreadsNum).toNat + 1 ≤
        (totalThreads env config).toNat
  clients : ∀ rounds backends servers, AfterRounds env config rounds backends servers →
    ∀ backend ∈ backends, ∀ client ∈ backend.getWorkClients ++ backend.rpcClients,
      threadsNum client = totalThreads env config

/-- The number of workers is configured, or a quarter of the cores is at least one, or there
is no telling how many cores there are; and the exact sum is below 2^32. -/
structure Fits : Prop where
  cores : config.workerThreadsNum = 0 →
    env.hardwareConcurrency = 0 ∨ 4 ≤ env.hardwareConcurrency.toNat
  sum : (if config.workerThreadsNum ≠ 0 then config.workerThreadsNum.toNat
      else if env.hardwareConcurrency ≠ 0 then env.hardwareConcurrency.toNat / 4 else 2) +
    config.coins.length * 2 + max 1 config.httpThreadsNum.toNat + 2 < 2 ^ 32

end Plan

section Numbers

variable {env : Environment} {config : CPoolFrontendConfig}

theorem workerThreads_toNat (configured : UInt32) :
    (workerThreads env configured).toNat = if configured ≠ 0 then configured.toNat
      else if env.hardwareConcurrency ≠ 0 then env.hardwareConcurrency.toNat / 4 else 2 := by
  unfold workerThreads
  split
  · rfl
  · split
    · exact UInt32.toNat_div _ _
    · rfl

theorem httpThreads_toNat (configured : UInt32) :
    (httpThreads configured).toNat = max 1 configured.toNat := by
  unfold httpThreads
  split
  · rename_i hzero
    rw [hzero]
    rfl
  · rename_i hne
    have hpos : configured.toNat ≠ 0 := fun hzero => hne (UInt32.toNat_inj.mp hzero)
    omega

theorem worker_iff : 1 ≤ (workerThreads env config.workerThreadsNum).toNat ↔
    (config.workerThreadsNum = 0 →
      env.hardwareConcurrency = 0 ∨ 4 ≤ env.hardwareConcurrency.toNat) := by
  rw [workerThreads_toNat]
  by_cases hconfigured : config.workerThreadsNum = 0
  · by_cases hcores : env.hardwareConcurrency = 0
    · simp [hconfigured, hcores]
    · simp only [hconfigured, hcores, ne_eq, not_true_eq_false, not_false_eq_true, if_false,
        if_true, false_or, true_imp_iff]
      omega
  · have hpos : config.workerThreadsNum.toNat ≠ 0 :=
      fun hzero => hconfigured (UInt32.toNat_inj.mp hzero)
    simp only [hconfigured, ne_eq, not_false_eq_true, if_true, false_imp_iff, iff_true]
    omega

/-- The sum is taken modulo 2^32. -/
theorem totalThreads_toNat : (totalThreads env config).toNat =
    (1 + (workerThreads env config.workerThreadsNum).toNat + config.coins.length * 2 +
      (httpThreads config.httpThreadsNum).toNat + 1) % 2 ^ 32 := by
  simp only [totalThreads, UInt32.toNat_add, UInt32.toNat_mul, UInt32.toNat_ofNat',
    UInt32.toNat_ofNat]
  omega

end Numbers

section Rounds

variable {env : Environment} {isMaster : Bool} {databasePath poolName : String}
  {totalThreadsNum : UInt32}

/-- Different algorithms come from different coins. -/
theorem algorithms_le {coins : List (CCoinConfig × Poolcore.CoinInfo)} {algorithms : List String}
    (hdistinct : algorithms.Nodup)
    (hcoins : ∀ algorithm ∈ algorithms, ∃ coin ∈ coins, coin.2.algorithm = algorithm) :
    algorithms.length ≤ coins.length := by
  have hsubset : algorithms ⊆ coins.map fun coin => coin.2.algorithm := by
    intro algorithm hmem
    obtain ⟨coin, hcoin, heq⟩ := hcoins algorithm hmem
    exact List.mem_map.mpr ⟨coin, hcoin, heq⟩
  have hlength := (hdistinct.subperm hsubset).length_le
  rwa [List.length_map] at hlength

/-- There is one backend for each coin, and at most one server. -/
theorem initBackends_lengths {coins : List (CCoinConfig × Poolcore.CoinInfo)}
    {backends : List PoolBackend} {servers : AlgoServers}
    (h : initBackends env isMaster databasePath poolName totalThreadsNum coins {} =
      pure (backends, servers)) :
    backends.length = coins.length ∧ servers.algoMetaStatistic.length ≤ coins.length := by
  obtain ⟨algorithms, hknown, hcreated, hcoins⟩ := initBackends_created known_empty h
  rw [List.nil_append] at hknown
  constructor
  · exact hcreated.length_eq.symm
  · rw [hknown.created, List.length_map]
    exact algorithms_le hknown.distinct hcoins

theorem createClient_threads {backendConfig : PoolBackendConfig} {node : CNodeConfig}
    {client : NetworkClient} (h : createClient totalThreadsNum backendConfig node = pure client) :
    threadsNum client = totalThreadsNum := by
  unfold createClient at h
  split at h
  · cases h
    rfl
  · split at h
    · cases h
      rfl
    · exact (throw_completes h).elim

theorem createClients_threads {backendConfig : PoolBackendConfig} {nodes : List CNodeConfig}
    {clients : List NetworkClient}
    (h : nodes.mapM (createClient totalThreadsNum backendConfig) = pure clients) :
    ∀ client ∈ clients, threadsNum client = totalThreadsNum := by
  have hall := mapM_completes h
  clear h
  induction hall with
  | nil => simp
  | cons hclient _ ih => exact List.forall_mem_cons.mpr ⟨createClient_threads hclient, ih⟩

/-- One round of the loop passes the count to every client of its backend. -/
theorem initBackend_threads {coinConfig : CCoinConfig} {coinInfo : Poolcore.CoinInfo}
    {servers servers' : AlgoServers} {backend : PoolBackend}
    (h : initBackend env isMaster databasePath poolName totalThreadsNum coinConfig coinInfo
      servers = pure (backend, servers')) :
    ∀ client ∈ backend.getWorkClients ++ backend.rpcClients,
      threadsNum client = totalThreadsNum := by
  obtain ⟨config, _, h⟩ := bind_completes h
  obtain ⟨getWorkClients, hgetWork, h⟩ := bind_completes h
  obtain ⟨rpcClients, hrpc, h⟩ := bind_completes h
  obtain ⟨⟨server, _⟩, _, h⟩ := bind_completes h
  cases h
  intro client hclient
  cases List.mem_append.mp hclient with
  | inl hmem => exact createClients_threads hgetWork client hmem
  | inr hmem => exact createClients_threads hrpc client hmem

theorem initBackends_threads {coins : List (CCoinConfig × Poolcore.CoinInfo)}
    {servers servers' : AlgoServers} {backends : List PoolBackend}
    (h : initBackends env isMaster databasePath poolName totalThreadsNum coins servers =
      pure (backends, servers')) :
    ∀ backend ∈ backends, ∀ client ∈ backend.getWorkClients ++ backend.rpcClients,
      threadsNum client = totalThreadsNum := by
  induction coins generalizing servers backends with
  | nil =>
    cases h
    simp
  | cons coin rest ih =>
    obtain ⟨⟨backend, middle⟩, hbackend, h⟩ := bind_completes h
    obtain ⟨⟨others, last⟩, hothers, h⟩ := bind_completes h
    cases h
    exact List.forall_mem_cons.mpr ⟨initBackend_threads hbackend, ih hothers⟩

end Rounds

section Exactly

variable {env : Environment} {config : CPoolFrontendConfig}

theorem afterRounds_lengths {rounds : Nat} {backends : List PoolBackend} {servers : AlgoServers}
    (h : AfterRounds env config rounds backends servers) :
    backends.length ≤ config.coins.length ∧
      servers.algoMetaStatistic.length ≤ config.coins.length := by
  obtain ⟨coinList, _, hrounds⟩ := h
  obtain ⟨hbackends, hservers⟩ := initBackends_lengths hrounds
  simp only [List.length_take, List.length_zip] at hbackends hservers
  omega

theorem unwrapped_iff : (totalThreads env config).toNat =
      1 + (workerThreads env config.workerThreadsNum).toNat + config.coins.length * 2 +
        (httpThreads config.httpThreadsNum).toNat + 1 ↔
    (workerThreads env config.workerThreadsNum).toNat + config.coins.length * 2 +
      (httpThreads config.httpThreadsNum).toNat + 2 < 2 ^ 32 := by
  rw [totalThreads_toNat, MachineInt.wrap_eq_iff _ _ (by decide)]
  omega

theorem sufficient_of_fits (h : Fits env config) : Sufficient env config := by
  have hfits := h.sum
  rw [← workerThreads_toNat, ← httpThreads_toNat] at hfits
  constructor
  · exact worker_iff.mpr h.cores
  · rw [httpThreads_toNat]
    exact Nat.le_max_left _ _
  · exact unwrapped_iff.mpr hfits
  · intro rounds backends servers hrounds
    obtain ⟨hbackends, hservers⟩ := afterRounds_lengths hrounds
    rw [unwrapped_iff.mpr hfits]
    omega
  · intro rounds backends servers hrounds
    obtain ⟨coinList, _, hrounds⟩ := hrounds
    exact initBackends_threads hrounds

/-- The plan is sufficient exactly when it fits. -/
theorem sufficient_iff (env : Environment) (config : CPoolFrontendConfig) :
    Sufficient env config ↔ Fits env config := by
  constructor
  · intro h
    constructor
    · exact worker_iff.mp h.worker
    · rw [← workerThreads_toNat, ← httpThreads_toNat]
      exact unwrapped_iff.mp h.unwrapped
  · exact sufficient_of_fits

/-- A set-up that completes has been through all rounds, and keeps the planned numbers. -/
theorem setUp_rounds {context : PoolContext} (h : setUp env config = pure context) :
    ∃ backends servers, AfterRounds env config config.coins.length backends servers ∧
      context.backends = sortByName env backends ∧
      context.algoMetaStatistic = servers.algoMetaStatistic ∧
      context.threadPool = workerThreads env config.workerThreadsNum ∧
      context.totalThreadsNum = totalThreads env config ∧
      context.httpServer.threadsNum = httpThreads config.httpThreadsNum := by
  obtain ⟨smtpAddress, _, h⟩ := bind_completes h
  obtain ⟨core, hcore, h⟩ := bind_completes h
  obtain ⟨instances, _, h⟩ := bind_completes h
  cases h
  obtain ⟨coinList, hcoins, hcore⟩ := bind_completes hcore
  obtain ⟨⟨backends, servers⟩, hbackends, hcore⟩ := bind_completes hcore
  cases hcore
  have hlength : (config.coins.zip coinList).length ≤ config.coins.length := by
    rw [List.length_zip]
    omega
  rw [← List.take_of_length_le hlength] at hbackends
  exact ⟨backends, servers, ⟨coinList, hcoins, hbackends⟩, rfl, rfl, rfl, rfl, rfl⟩

/-- Where the plan fits, the pool that was set up has a thread for each of its parts. -/
theorem context_covered {context : PoolContext} (hfits : Fits env config)
    (h : setUp env config = pure context) :
    1 + context.threadPool.toNat + context.backends.length + context.algoMetaStatistic.length +
      context.httpServer.threadsNum.toNat + 1 ≤ context.totalThreadsNum.toNat := by
  obtain ⟨backends, servers, hrounds, hsorted, hservers, hworkers, htotal, hhttp⟩ :=
    setUp_rounds h
  have hcovers := (sufficient_of_fits hfits).covers _ backends servers hrounds
  rw [hsorted, hservers, hworkers, htotal, hhttp, (sortByName_perm env backends).length_eq]
  exact hcovers

/-- On two cores the accepted document of one coin gives no worker. -/
theorem two_cores_no_worker :
    ¬ ∀ (env : Environment) (self : CPoolFrontendConfig) (document : Value)
      (config : CPoolFrontendConfig) (error : String),
      self.load document "" = some (true, config, error) → Sufficient env config := by
  intro hclaim
  obtain ⟨config, error, hload, hworkers⟩ : ∃ config error,
      CPoolFrontendConfig.load {} (NumericSettings.sampleDocument 7) "" =
        some (true, config, error) ∧ config.workerThreadsNum = 0 := ⟨_, _, rfl, rfl⟩
  have hworker := (hclaim { NumericSettings.sampleEnvironment with hardwareConcurrency := 2 } _ _ _
    _ hload).worker
  rw [hworkers] at hworker
  exact absurd hworker (by decide)

end Exactly

end ThreadPlan
