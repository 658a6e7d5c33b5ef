import PoolFrontend.NumericSettings

/-!
# The wiring of the pool

One backend for each coin, one statistic server for each algorithm, and instances linked to
backends of one algorithm. The check of the last takes an algorithm without a name for none.
-/
namespace SetupWiring

open Poolcore Config MainSetup SortedSearch

section Wiring

variable (env : Environment) (config : CPoolFrontendConfig)

/-- What the library says of a configured coin. -/
def infoOf (coin : CCoinConfig) : CoinInfo := env.coinLibrary coin.name

/-- The backend of a coin: enough confirmations, and only addresses that are accepted. -/
structure BackendOf (coin : CCoinConfig) (backend : PoolBackend) : Prop where
  coinInfo : backend.coinInfo = infoOf env coin
  requiredConfirmations : backend.config.requiredConfirmations = coin.requiredConfirmations
  confirmed :
    backend.coinInfo.minimalConfirmationsNumber ≤ backend.config.requiredConfirmations
  miningAddresses : backend.config.miningAddresses = coin.miningAddresses
  checked : ∀ addr ∈ backend.config.miningAddresses,
    env.helpers.checkAddress backend.coinInfo addr.address backend.coinInfo.payoutAddressType = true

/-- The linked backends of an instance have the names of its list, in order, and one algorithm,
whose server is the instance's. -/
structure InstanceOf (context : PoolContext) (algorithms : List String)
    (instanceConfig : CInstanceConfig) (inst : PoolInstance) : Prop where
  linked : List.Forall₂ (fun name backend => backend ∈ context.backends ∧
    backend.coinInfo.name = name) instanceConfig.backends inst.linkedBackends
  oneAlgorithm : ∀ l ∈ inst.linkedBackends, ∀ r ∈ inst.linkedBackends,
    l.coinInfo.algorithm = r.coinInfo.algorithm
  server : ∀ backend ∈ inst.linkedBackends, ∃ server, inst.algoMetaStatistic = some server ∧
    algorithms[server]? = some backend.coinInfo.algorithm

/-- The servers are those of `algorithms`, in this order. -/
structure Wired (context : PoolContext) (algorithms : List String) : Prop where
  backends : ∃ created, context.backends.Perm created ∧
    List.Forall₂ (BackendOf env) config.coins created
  distinct : algorithms.Nodup
  configured : ∀ algorithm, algorithm ∈ algorithms ↔
    ∃ coin ∈ config.coins, (infoOf env coin).algorithm = algorithm
  servers : context.algoMetaStatistic = algorithms.map env.coinLibrary
  attached : ∀ backend ∈ context.backends,
    algorithms[backend.algoMetaStatistic]? = some backend.coinInfo.algorithm
  instances : List.Forall₂ (InstanceOf context algorithms) config.instances context.instances

/-- The algorithm of the coin that the sort puts first among those of a name. -/
def algorithmOf (name : String) : Option String :=
  ((env.sort.apply CoinInfo.name (config.coins.map (infoOf env))).find? fun info =>
    info.name = name).map CoinInfo.algorithm

/-- The coins of an instance all have an algorithm with a name, or none of them has. -/
def CoinsNamed (instanceConfig : CInstanceConfig) : Prop :=
  (∀ name ∈ instanceConfig.backends, algorithmOf env config name ≠ some "") ∨
    ∀ name ∈ instanceConfig.backends, algorithmOf env config name = some ""

def AlgorithmsNamed : Prop :=
  ∀ instanceConfig ∈ config.instances, CoinsNamed env config instanceConfig

end Wiring

section Backends

variable {env : Environment} {isMaster : Bool} {databasePath poolName : String}
  {totalThreadsNum : UInt32}

theorem lookupCoin_info {coin : CCoinConfig} {info : CoinInfo}
    (h : lookupCoin env coin = pure info) : info = infoOf env coin := by
  by_cases hname : (env.coinLibrary coin.name).name = ""
  · simp only [lookupCoin, hname, if_true] at h
    obtain ⟨_, hthrow, _⟩ := bind_completes h
    exact (throw_completes hthrow).elim
  · simp only [lookupCoin, hname, if_false] at h
    cases h
    rfl

/-- A backend whose parameters are complete passed both checks. -/
theorem backendParameters_checked {coin : CCoinConfig} {info : CoinInfo}
    {config : PoolBackendConfig}
    (h : backendParameters env isMaster databasePath poolName coin info = pure config) :
    config.requiredConfirmations = coin.requiredConfirmations ∧
    config.miningAddresses = coin.miningAddresses ∧
    info.minimalConfirmationsNumber ≤ coin.requiredConfirmations ∧
    ∀ addr ∈ coin.miningAddresses,
      env.helpers.checkAddress info addr.address info.payoutAddressType = true := by
  unfold backendParameters at h
  split at h
  · split at h
    · split at h
      · exact (throw_completes h).elim
      · rename_i hconfirmations
        split at h
        · exact (throw_completes h).elim
        · rename_i hfind
          cases h
          refine ⟨rfl, rfl, UInt32.not_lt.mp hconfirmations, fun addr haddr => ?_⟩
          have hnot := List.find?_eq_none.mp hfind addr haddr
          simpa using hnot
    · exact (throw_completes h).elim
  · exact (throw_completes h).elim

/-- Each algorithm known so far has the server at its place. -/
structure Known (env : Environment) (algorithms : List String) (servers : AlgoServers) :
    Prop where
  distinct : algorithms.Nodup
  created : servers.algoMetaStatistic = algorithms.map env.coinLibrary
  known : ∀ algorithm server, servers.knownAlgo.lookup algorithm = some server ↔
    algorithms[server]? = some algorithm

theorem known_empty : Known env [] {} where
  distinct := List.nodup_nil
  created := rfl
  known algorithm server := by simp

theorem getElem_append {algorithms : List String} {server : Nat} {algorithm : String}
    (h : algorithms[server]? = some algorithm) (added : List String) :
    (algorithms ++ added)[server]? = some algorithm := by
  obtain ⟨hlt, hget⟩ := List.getElem?_eq_some_iff.mp h
  rw [List.getElem?_append_left hlt]
  exact h

theorem concat_getElem {algorithms : List String} {server : Nat} {algorithm other : String}
    (h : (algorithms ++ [algorithm])[server]? = some other) :
    algorithms[server]? = some other ∨ server = algorithms.length ∧ other = algorithm := by
  by_cases hlt : server < algorithms.length
  · rw [List.getElem?_append_left hlt] at h
    exact .inl h
  · rw [List.getElem?_append_right (by omega)] at h
    have hzero : server - algorithms.length = 0 := by
      have hbound := (List.getElem?_eq_some_iff.mp h).1
      simpa using hbound
    rw [hzero] at h
    cases h
    exact .inr ⟨by omega, rfl⟩

/-- An algorithm that is not known gets the next place. -/
theorem known_insert {algorithms : List String} {servers : AlgoServers} {algorithm : String}
    (h : Known env algorithms servers) (hnew : servers.knownAlgo.lookup algorithm = none) :
    Known env (algorithms ++ [algorithm]) {
      knownAlgo := (algorithm, servers.algoMetaStatistic.length) :: servers.knownAlgo
      algoMetaStatistic := servers.algoMetaStatistic ++ [env.coinLibrary algorithm] } := by
  have hlength : servers.algoMetaStatistic.length = algorithms.length := by
    rw [h.created, List.length_map]
  have hfresh : algorithm ∉ algorithms := by
    intro hmem
    obtain ⟨server, hserver⟩ := List.mem_iff_getElem?.mp hmem
    rw [(h.known _ _).mpr hserver] at hnew
    cases hnew
  refine ⟨?_, ?_, fun other server => ?_⟩
  · exact List.nodup_append.mpr ⟨h.distinct, by simp, fun a ha b hb => by
      rw [List.mem_singleton.mp hb]
      exact fun heq => hfresh (heq ▸ ha)⟩
  · simp [h.created]
  · by_cases hother : other = algorithm
    · rw [hother, List.lookup_cons_self, hlength, Option.some.injEq]
      constructor
      · intro heq
        rw [← heq, List.getElem?_concat_length]
      · intro hserver
        cases concat_getElem hserver with
        | inl hold => exact absurd (List.mem_of_getElem? hold) hfresh
        | inr hnext => exact hnext.1.symm
    · have hbeq : (other == algorithm) = false := by simpa using hother
      rw [List.lookup_cons, hbeq, h.known]
      constructor
      · intro hserver
        exact getElem_append hserver _
      · intro hserver
        cases concat_getElem hserver with
        | inl hold => exact hold
        | inr hnext => exact absurd hnext.2 hother

/-- The server of a coin is that of its algorithm, known or created. -/
theorem algoServer_known {info : CoinInfo} {algorithms : List String}
    {servers servers' : AlgoServers} {server : Nat} (hknown : Known env algorithms servers)
    (h : algoServer env info servers = pure (server, servers')) :
    ∃ added, Known env (algorithms ++ added) servers' ∧
      (algorithms ++ added)[server]? = some info.algorithm ∧
      ∀ algorithm ∈ added, algorithm = info.algorithm := by
  unfold algoServer at h
  cases hlookup : servers.knownAlgo.lookup info.algorithm with
  | some found =>
    rw [hlookup] at h
    cases h
    refine ⟨[], by simpa using hknown, ?_, by simp⟩
    rw [List.append_nil]
    exact (hknown.known _ _).mp hlookup
  | none =>
    rw [hlookup] at h
    by_cases hname : (env.coinLibrary info.algorithm).name = ""
    · simp only [hname, if_true] at h
      obtain ⟨_, hthrow, _⟩ := bind_completes h
      exact (throw_completes hthrow).elim
    · simp only [hname, if_false] at h
      cases h
      have hinsert := known_insert hknown hlookup
      refine ⟨[info.algorithm], hinsert, ?_, by simp⟩
      exact (hinsert.known _ _).mp (List.lookup_cons_self)

/-- What one round of the loop over the coins gives. -/
structure Created (env : Environment) (algorithms : List String) (coin : CCoinConfig × CoinInfo)
    (backend : PoolBackend) : Prop where
  coinInfo : backend.coinInfo = coin.2
  requiredConfirmations : backend.config.requiredConfirmations = coin.1.requiredConfirmations
  confirmed : coin.2.minimalConfirmationsNumber ≤ coin.1.requiredConfirmations
  miningAddresses : backend.config.miningAddresses = coin.1.miningAddresses
  checked : ∀ addr ∈ coin.1.miningAddresses,
    env.helpers.checkAddress coin.2 addr.address coin.2.payoutAddressType = true
  attached : algorithms[backend.algoMetaStatistic]? = some coin.2.algorithm

theorem initBackend_created {coin : CCoinConfig × CoinInfo} {algorithms : List String}
    {servers servers' : AlgoServers} {backend : PoolBackend}
    (hknown : Known env algorithms servers)
    (h : initBackend env isMaster databasePath poolName totalThreadsNum coin.1 coin.2 servers =
      pure (backend, servers')) :
    ∃ added, Known env (algorithms ++ added) servers' ∧
      Created env (algorithms ++ added) coin backend ∧
      ∀ algorithm ∈ added, algorithm = coin.2.algorithm := by
  obtain ⟨config, hconfig, h⟩ := bind_completes h
  obtain ⟨getWorkClients, _, h⟩ := bind_completes h
  obtain ⟨rpcClients, _, h⟩ := bind_completes h
  obtain ⟨⟨server, last⟩, hserver, h⟩ := bind_completes h
  cases h
  obtain ⟨hconfirmations, haddresses, hconfirmed, hchecked⟩ := backendParameters_checked hconfig
  obtain ⟨added, hlast, hattached, hadded⟩ := algoServer_known hknown hserver
  exact ⟨added, hlast, ⟨rfl, hconfirmations, hconfirmed, haddresses, hchecked, hattached⟩, hadded⟩

/-- The loop keeps what is known and makes one backend for each coin, in order. -/
theorem initBackends_created {coins : List (CCoinConfig × CoinInfo)} {algorithms : List String}
    {servers servers' : AlgoServers} {backends : List PoolBackend}
    (hknown : Known env algorithms servers)
    (h : initBackends env isMaster databasePath poolName totalThreadsNum coins servers =
      pure (backends, servers')) :
    ∃ added, Known env (algorithms ++ added) servers' ∧
      List.Forall₂ (Created env (algorithms ++ added)) coins backends ∧
      ∀ algorithm ∈ added, ∃ coin ∈ coins, coin.2.algorithm = algorithm := by
  induction coins generalizing algorithms servers backends with
  | nil =>
    cases h
    exact ⟨[], by simpa using hknown, .nil, by simp⟩
  | cons coin rest ih =>
    obtain ⟨⟨backend, middle⟩, hbackend, h⟩ := bind_completes h
    obtain ⟨⟨others, last⟩, hothers, h⟩ := bind_completes h
    cases h
    obtain ⟨first, hmiddle, hcreated, hfirst⟩ := initBackend_created hknown hbackend
    obtain ⟨more, hlast, hrest, hmore⟩ := ih hmiddle hothers
    rw [List.append_assoc] at hlast hrest
    refine ⟨first ++ more, hlast, .cons ?_ hrest, fun algorithm halgorithm => ?_⟩
    · rw [← List.append_assoc]
      exact { hcreated with attached := getElem_append hcreated.attached more }
    · cases List.mem_append.mp halgorithm with
      | inl hmem => exact ⟨coin, List.mem_cons_self, (hfirst algorithm hmem).symm⟩
      | inr hmem =>
        obtain ⟨other, hother, heq⟩ := hmore algorithm hmem
        exact ⟨other, List.mem_cons_of_mem _ hother, heq⟩

end Backends

section Instances

variable {env : Environment} {config : CPoolFrontendConfig}

theorem sortByName_sorted (env : Environment) (backends : List PoolBackend) :
    (sortByName env backends).Pairwise fun l r => l.coinInfo.name ≤ r.coinInfo.name :=
  env.sort.apply_sorted _ backends

theorem sortByName_perm (env : Environment) (backends : List PoolBackend) :
    (sortByName env backends).Perm backends :=
  env.sort.apply_perm _ backends

/-- The search links the backend that the sort put first among those of the name. -/
theorem linkBackend_first {created : List PoolBackend} {backend : PoolBackend}
    {instanceName name : String}
    (h : linkBackend (sortByName env created) instanceName name = pure backend) :
    backend ∈ sortByName env created ∧ backend.coinInfo.name = name ∧
      (env.sort.apply CoinInfo.name (created.map PoolBackend.coinInfo)).find?
        (fun info => info.name = name) = some backend.coinInfo := by
  unfold linkBackend at h
  split at h
  · rename_i found hfound
    cases h
    obtain ⟨hname, hmem⟩ := Server.findByName_name hfound
    refine ⟨hmem, hname, ?_⟩
    rw [findByName_find (sortByName_sorted env created)] at hfound
    have hinfos := env.sort.apply_map CoinInfo.name PoolBackend.coinInfo created
    rw [← hinfos, List.find?_map]
    exact congrArg (Option.map PoolBackend.coinInfo) hfound
  · exact (throw_completes h).elim

theorem attachBackends_cons {instanceName algo : String} {first : PoolBackend}
    {rest : List PoolBackend} {server result : Option Nat}
    (h : attachBackends instanceName (first :: rest) algo server = pure result) :
    (algo = "" ∨ first.coinInfo.algorithm = algo) ∧
      attachBackends instanceName rest first.coinInfo.algorithm (some first.algoMetaStatistic) =
        pure result := by
  unfold attachBackends at h
  by_cases hdiffers : algo ≠ "" ∧ first.coinInfo.algorithm ≠ algo
  · rw [if_pos hdiffers] at h
    obtain ⟨_, hthrow, _⟩ := bind_completes h
    exact (throw_completes hthrow).elim
  · rw [if_neg hdiffers] at h
    refine ⟨?_, h⟩
    by_cases hnamed : algo = ""
    · exact .inl hnamed
    · exact .inr (by_contra fun hne => hdiffers ⟨hnamed, hne⟩)

/-- Behind a backend whose algorithm has a name all others have that algorithm. -/
theorem attachBackends_named {instanceName algo : String} {linked : List PoolBackend}
    {server result : Option Nat} (hnamed : algo ≠ "")
    (h : attachBackends instanceName linked algo server = pure result) :
    ∀ backend ∈ linked, backend.coinInfo.algorithm = algo := by
  induction linked generalizing server with
  | nil => simp
  | cons first rest ih =>
    obtain ⟨hfirst, hrest⟩ := attachBackends_cons h
    have heq := hfirst.resolve_left hnamed
    rw [heq] at hrest
    rw [List.forall_mem_cons]
    exact ⟨heq, ih hrest⟩

theorem attachBackends_last {instanceName algo : String} {linked : List PoolBackend}
    {server result : Option Nat}
    (h : attachBackends instanceName linked algo server = pure result) :
    result = (linked.getLast?.map PoolBackend.algoMetaStatistic).or server := by
  induction linked generalizing algo server with
  | nil =>
    cases h
    rfl
  | cons first rest ih =>
    rw [ih (attachBackends_cons h).2]
    cases rest with
    | nil => rfl
    | cons second others => simp [List.getLast?_cons]

/-- The linked backends agree on the algorithm unless one that has no name comes first. -/
theorem oneAlgorithm_iff {instanceName : String} {linked : List PoolBackend}
    {server result : Option Nat}
    (h : attachBackends instanceName linked "" server = pure result) :
    (∀ l ∈ linked, ∀ r ∈ linked, l.coinInfo.algorithm = r.coinInfo.algorithm) ↔
      (∀ backend ∈ linked, backend.coinInfo.algorithm ≠ "") ∨
        ∀ backend ∈ linked, backend.coinInfo.algorithm = "" := by
  cases linked with
  | nil => simp
  | cons first rest =>
    obtain ⟨-, hrest⟩ := attachBackends_cons h
    by_cases hfirst : first.coinInfo.algorithm = ""
    · constructor
      · intro hall
        exact .inr fun backend hmem => (hall backend hmem first List.mem_cons_self).trans hfirst
      · intro hcases l hl r hr
        cases hcases with
        | inl hnamed => exact absurd hfirst (hnamed first List.mem_cons_self)
        | inr hempty => rw [hempty l hl, hempty r hr]
    · have hnamed : ∀ backend ∈ first :: rest,
          backend.coinInfo.algorithm = first.coinInfo.algorithm := by
        rw [List.forall_mem_cons]
        exact ⟨rfl, attachBackends_named hfirst hrest⟩
      refine iff_of_true (fun l hl r hr => (hnamed l hl).trans (hnamed r hr).symm) (.inl ?_)
      intro backend hmem
      rw [hnamed backend hmem]
      exact hfirst

theorem forall_mem_iff {α β : Type} {R : α → β → Prop} {P : α → Prop} {Q : β → Prop}
    {xs : List α} {ys : List β} (h : List.Forall₂ R xs ys) (hPQ : ∀ x y, R x y → (P x ↔ Q y)) :
    (∀ x ∈ xs, P x) ↔ ∀ y ∈ ys, Q y := by
  induction h with
  | nil => simp
  | cons hxy _ ih => rw [List.forall_mem_cons, List.forall_mem_cons, hPQ _ _ hxy, ih]

/-- The backends in the order of the coins, with all servers known. -/
structure Completed (env : Environment) (config : CPoolFrontendConfig) (context : PoolContext)
    (created : List PoolBackend) (algorithms : List String) : Prop where
  sorted : context.backends = sortByName env created
  backends : List.Forall₂ (fun coin backend =>
    Created env algorithms (coin, infoOf env coin) backend) config.coins created
  distinct : algorithms.Nodup
  servers : context.algoMetaStatistic = algorithms.map env.coinLibrary
  needed : ∀ algorithm ∈ algorithms, ∃ coin ∈ config.coins,
    (infoOf env coin).algorithm = algorithm
  instances : List.Forall₂ (fun instanceConfig inst => ∃ instIdx,
    initInstance env context.backends config.instances.length instanceConfig instIdx = pure inst)
    config.instances context.instances

theorem lookupCoins_infos {coins : List CCoinConfig} {coinList : List CoinInfo}
    (h : coins.mapM (lookupCoin env) = pure coinList) : coinList = coins.map (infoOf env) := by
  have hall := mapM_completes h
  clear h
  induction hall with
  | nil => rfl
  | cons hcoin _ ih => rw [List.map_cons, ← ih, lookupCoin_info hcoin]

theorem zip_infos (coins : List CCoinConfig) :
    coins.zip (coins.map (infoOf env)) = coins.map fun coin => (coin, infoOf env coin) := by
  induction coins with
  | nil => rfl
  | cons coin rest ih => rw [List.map_cons, List.zip_cons_cons, ih, List.map_cons]

/-- A set-up that completes has made all of its parts. -/
theorem setUp_completed {context : PoolContext} (h : setUp env config = pure context) :
    ∃ created algorithms, Completed env config context created algorithms := by
  obtain ⟨smtpAddress, _, h⟩ := bind_completes h
  obtain ⟨core, hcore, h⟩ := bind_completes h
  obtain ⟨instances, hinstances, h⟩ := bind_completes h
  cases h
  obtain ⟨coinList, hcoins, hcore⟩ := bind_completes hcore
  obtain ⟨⟨created, servers⟩, hcreated, hcore⟩ := bind_completes hcore
  cases hcore
  rw [lookupCoins_infos hcoins, zip_infos] at hcreated
  obtain ⟨algorithms, hknown, hbackends, hneeded⟩ := initBackends_created known_empty hcreated
  rw [List.nil_append] at hknown hbackends
  refine ⟨created, algorithms, rfl, ?_, hknown.distinct, hknown.created, ?_, ?_⟩
  · exact List.forall₂_map_left_iff.mp hbackends
  · intro algorithm halgorithm
    obtain ⟨pair, hpair, heq⟩ := hneeded algorithm halgorithm
    obtain ⟨coin, hcoin, rfl⟩ := List.mem_map.mp hpair
    exact ⟨coin, hcoin, heq⟩
  · have hconfigs : List.Forall₂ (fun instanceConfig inst => ∃ instIdx, initInstance env
        (sortByName env created) config.instances.length instanceConfig instIdx = pure inst)
        (config.instances.zipIdx.map Prod.fst) instances :=
      List.forall₂_map_left_iff.mpr ((mapM_completes hinstances).imp fun pair _ hinst =>
        ⟨pair.2, hinst⟩)
    rw [List.zipIdx_map_fst] at hconfigs
    exact hconfigs

theorem initInstance_parts {backends : List PoolBackend} {instIdxE instIdx : Nat}
    {instanceConfig : CInstanceConfig} {inst : PoolInstance}
    (h : initInstance env backends instIdxE instanceConfig instIdx = pure inst) :
    ∃ linked server, instanceConfig.backends.mapM (linkBackend backends instanceConfig.name) =
        pure linked ∧
      attachBackends instanceConfig.name linked "" none = pure server ∧
      inst = ⟨linked, server⟩ := by
  obtain ⟨linked, hlinked, h⟩ := bind_completes h
  by_cases hfabric : env.poolInstanceFabric (linked.map PoolBackend.coinInfo) instanceConfig.type
      instanceConfig.protocol instIdx instIdxE instanceConfig.instanceConfig = true
  · simp only [hfabric, Bool.not_true, Bool.false_eq_true, if_false] at h
    obtain ⟨server, hserver, h⟩ := bind_completes h
    cases h
    exact ⟨linked, server, hlinked, hserver, rfl⟩
  · simp only [hfabric, Bool.not_false, if_true] at h
    obtain ⟨_, hthrow, _⟩ := bind_completes h
    exact (throw_completes hthrow).elim

section Linked

variable {context : PoolContext} {created : List PoolBackend} {algorithms : List String}

theorem created_infos (h : Completed env config context created algorithms) :
    created.map PoolBackend.coinInfo = config.coins.map (infoOf env) := by
  have hall := h.backends
  clear h
  generalize config.coins = coins at hall
  induction hall with
  | nil => rfl
  | cons hbackend _ ih => rw [List.map_cons, List.map_cons, ih, hbackend.coinInfo]

/-- Every backend is attached to the server of its algorithm. -/
theorem created_attached (h : Completed env config context created algorithms) :
    ∀ backend ∈ context.backends,
      algorithms[backend.algoMetaStatistic]? = some backend.coinInfo.algorithm := by
  have hcreated : ∀ backend ∈ created,
      algorithms[backend.algoMetaStatistic]? = some backend.coinInfo.algorithm := by
    refine (forall_mem_iff h.backends (P := fun _ => True) fun coin backend hbackend => ?_).mp
      fun _ _ => trivial
    rw [hbackend.coinInfo]
    exact iff_of_true trivial hbackend.attached
  intro backend hmem
  rw [h.sorted] at hmem
  exact hcreated backend ((sortByName_perm env created).mem_iff.mp hmem)

/-- A linked backend has the algorithm of the first coin of its name. -/
theorem linked_algorithm (h : Completed env config context created algorithms)
    {instanceName name : String} {backend : PoolBackend}
    (hlink : linkBackend context.backends instanceName name = pure backend) :
    backend ∈ context.backends ∧ backend.coinInfo.name = name ∧
      algorithmOf env config name = some backend.coinInfo.algorithm := by
  rw [h.sorted] at hlink ⊢
  obtain ⟨hmem, hname, hfirst⟩ := linkBackend_first hlink
  refine ⟨hmem, hname, ?_⟩
  rw [algorithmOf, ← created_infos h, hfirst]
  rfl

theorem linked_algorithms (h : Completed env config context created algorithms)
    {instanceName : String} {names : List String} {linked : List PoolBackend}
    (hlinked : names.mapM (linkBackend context.backends instanceName) = pure linked) :
    List.Forall₂ (fun name backend => backend ∈ context.backends ∧
      backend.coinInfo.name = name ∧
      algorithmOf env config name = some backend.coinInfo.algorithm) names linked :=
  (mapM_completes hlinked).imp fun _ _ hlink => linked_algorithm h hlink

theorem coinsNamed_iff (h : Completed env config context created algorithms)
    {instanceConfig : CInstanceConfig} {inst : PoolInstance} {instIdxE instIdx : Nat}
    (hinst : initInstance env context.backends instIdxE instanceConfig instIdx = pure inst) :
    (∀ l ∈ inst.linkedBackends, ∀ r ∈ inst.linkedBackends,
      l.coinInfo.algorithm = r.coinInfo.algorithm) ↔ CoinsNamed env config instanceConfig := by
  obtain ⟨linked, server, hlinked, hattach, rfl⟩ := initInstance_parts hinst
  have hlinks := linked_algorithms h hlinked
  have hnamed := forall_mem_iff hlinks (P := fun name => algorithmOf env config name ≠ some "")
    (Q := fun backend => backend.coinInfo.algorithm ≠ "") fun name backend hlink => by
      rw [hlink.2.2, ne_eq, Option.some.injEq]
  have hunnamed := forall_mem_iff hlinks (P := fun name => algorithmOf env config name = some "")
    (Q := fun backend => backend.coinInfo.algorithm = "") fun name backend hlink => by
      rw [hlink.2.2, Option.some.injEq]
  rw [CoinsNamed, hnamed, hunnamed]
  exact oneAlgorithm_iff hattach

theorem instanceOf_one (h : Completed env config context created algorithms)
    {instanceConfig : CInstanceConfig} {inst : PoolInstance} {instIdxE instIdx : Nat}
    (hinst : initInstance env context.backends instIdxE instanceConfig instIdx = pure inst)
    (hone : ∀ l ∈ inst.linkedBackends, ∀ r ∈ inst.linkedBackends,
      l.coinInfo.algorithm = r.coinInfo.algorithm) :
    InstanceOf context algorithms instanceConfig inst := by
  obtain ⟨linked, server, hlinked, hattach, rfl⟩ := initInstance_parts hinst
  have hlinks := linked_algorithms h hlinked
  refine ⟨hlinks.imp fun name backend hlink => ⟨hlink.1, hlink.2.1⟩, hone, fun backend hmem => ?_⟩
  have hserver := attachBackends_last hattach
  cases hlast : linked.getLast? with
  | none => simp [List.getLast?_eq_none_iff.mp hlast] at hmem
  | some last =>
    rw [hlast] at hserver
    have hlastMem : last ∈ linked := List.mem_of_getLast? hlast
    have hall := (forall_mem_iff hlinks (P := fun _ => True)
      (Q := fun backend => backend ∈ context.backends) fun _ _ hlink =>
        iff_of_true trivial hlink.1).mp fun _ _ => trivial
    refine ⟨last.algoMetaStatistic, hserver, ?_⟩
    rw [created_attached h last (hall last hlastMem), hone last hlastMem backend hmem]

end Linked

/-- All but the instances is wired whatever the algorithms are. -/
theorem completed_wired {context : PoolContext} {created : List PoolBackend}
    {algorithms : List String} (h : Completed env config context created algorithms)
    (hinstances : List.Forall₂ (InstanceOf context algorithms) config.instances context.instances) :
    Wired env config context algorithms where
  backends := by
    refine ⟨created, ?_, h.backends.imp fun coin backend hbackend => ?_⟩
    · rw [h.sorted]
      exact sortByName_perm env created
    · refine ⟨hbackend.coinInfo, hbackend.requiredConfirmations, ?_, hbackend.miningAddresses, ?_⟩
      · rw [hbackend.coinInfo, hbackend.requiredConfirmations]
        exact hbackend.confirmed
      · rw [hbackend.coinInfo, hbackend.miningAddresses]
        exact hbackend.checked
  distinct := h.distinct
  configured algorithm := by
    refine ⟨h.needed algorithm, fun hcoin => ?_⟩
    obtain ⟨coin, hmem, heq⟩ := hcoin
    have hall := (forall_mem_iff h.backends (P := fun coin =>
      (infoOf env coin).algorithm ∈ algorithms) (Q := fun _ => True) fun _ _ hbackend =>
        iff_of_true (List.mem_of_getElem? hbackend.attached) trivial).mpr fun _ _ => trivial
    rw [← heq]
    exact hall coin hmem
  servers := h.servers
  attached := created_attached h
  instances := hinstances

/-- A set-up that completes is wired as it should be exactly when, in every instance, all coins
or none have an algorithm with a name. -/
theorem wired_iff {context : PoolContext} (h : setUp env config = pure context) :
    (∃ algorithms, Wired env config context algorithms) ↔ AlgorithmsNamed env config := by
  obtain ⟨created, algorithms, hcompleted⟩ := setUp_completed h
  constructor
  · intro hwired
    obtain ⟨others, hwired⟩ := hwired
    have hnamed : List.Forall₂ (fun instanceConfig _ => CoinsNamed env config instanceConfig ∧ True)
        config.instances context.instances := by
      refine List.Forall₂.mp (fun instanceConfig inst hinst hof => ⟨?_, trivial⟩)
        hcompleted.instances hwired.instances
      obtain ⟨instIdx, hinst⟩ := hinst
      exact (coinsNamed_iff hcompleted hinst).mp hof.oneAlgorithm
    exact ((List.forall₂_and_left _ _).mp hnamed).1
  · intro hnamed
    refine ⟨algorithms, completed_wired hcompleted ?_⟩
    refine ((List.forall₂_and_left _ _).mpr ⟨hnamed, hcompleted.instances⟩).imp
      fun instanceConfig inst hboth => ?_
    obtain ⟨hcoins, instIdx, hinst⟩ := hboth
    exact instanceOf_one hcompleted hinst ((coinsNamed_iff hcompleted hinst).mpr hcoins)

end Instances

/-- A coin that needs nothing else. -/
def plainCoin (name : String) : CCoinConfig := { name, requiredConfirmations := 1 }

/-- Two coins and an instance that is linked with both. -/
def twoCoins : CPoolFrontendConfig where
  coins := [plainCoin "BTC", plainCoin "BCH"]
  instances := [{ name := "main", backends := ["BTC", "BCH"] }]

/-- A library in which the first coin has an algorithm without a name. -/
def unnamedLibrary (name : String) : CoinInfo :=
  ⟨if name = "" then "plain" else name, name, if name = "BTC" then "" else "sha256", 100000000, 1,
    0, 0, 1⟩

theorem two_algorithms_linked :
    ¬ ∀ (env : Environment) (config : CPoolFrontendConfig) (context : PoolContext),
      setUp env config = pure context → ∃ algorithms, Wired env config context algorithms := by
  intro hclaim
  obtain ⟨context, hsetUp⟩ : ∃ context,
      setUp { NumericSettings.sampleEnvironment with coinLibrary := unnamedLibrary } twoCoins =
        pure context := ⟨_, rfl⟩
  obtain ⟨algorithms, hwired⟩ := hclaim _ _ _ hsetUp
  cases hsetUp
  cases hwired.instances with
  | cons hof _ =>
    have hsame := hof.oneAlgorithm _ List.mem_cons_self _
      (List.mem_cons_of_mem _ List.mem_cons_self)
    exact absurd hsame (by decide)

theorem wired_iff_two : ∃ context,
    setUp NumericSettings.sampleEnvironment twoCoins = pure context ∧
    ((∃ algorithms, Wired NumericSettings.sampleEnvironment twoCoins context algorithms) ↔
      AlgorithmsNamed NumericSettings.sampleEnvironment twoCoins) := by
  obtain ⟨context, hsetUp⟩ : ∃ context,
      setUp NumericSettings.sampleEnvironment twoCoins = pure context := ⟨_, rfl⟩
  exact ⟨context, hsetUp, wired_iff hsetUp⟩

end SetupWiring
