import PoolFrontend.SetupWiring
import PoolFrontend.StartUp

/-!
# The pool a configuration describes

The set-up makes one certain pool of a configuration, or none. The pool and what it takes are
described here part by part, apart from the loops that make them.
-/
namespace SetUpOutcome

open Json Config Poolcore MainSetup SetupWiring SortedSearch ConfigSections

section Rules

variable {α β : Type}

theorem pure_iff {x y : α} : (pure x : Setup α) = pure y ↔ y = x := by
  constructor
  · intro h
    cases h
    rfl
  · rintro rfl
    rfl

theorem throw_iff {message : String} {x : α} : (throw message : Setup α) = pure x ↔ False :=
  ⟨throw_completes, False.elim⟩

theorem bind_iff {p : Setup α} {q : α → Setup β} {y : β} :
    p >>= q = pure y ↔ ∃ x, p = pure x ∧ q x = pure y := by
  constructor
  · exact bind_completes
  · rintro ⟨x, rfl, h⟩
    exact h

/-- A step whose result is known leaves its condition and the rest. -/
theorem bind_known {p : Setup α} {q : α → Setup β} {c : Prop} {x : α}
    (h : ∀ z, p = pure z ↔ c ∧ z = x) {y : β} : p >>= q = pure y ↔ c ∧ q x = pure y := by
  rw [bind_iff]
  constructor
  · rintro ⟨z, hp, hq⟩
    obtain ⟨hc, rfl⟩ := (h z).mp hp
    exact ⟨hc, hq⟩
  · rintro ⟨hc, hq⟩
    exact ⟨x, (h x).mpr ⟨hc, rfl⟩, hq⟩

/-- A check that logs an error. -/
theorem check_iff {c : Prop} [Decidable c] {message : String} {p : Setup α} {y : α} :
    (if c then throw message else p) = pure y ↔ ¬ c ∧ p = pure y := by
  by_cases h : c
  · rw [if_pos h, throw_iff]
    exact iff_of_false not_false fun hnot => hnot.1 h
  · rw [if_neg h]
    exact ⟨fun hp => ⟨h, hp⟩, And.right⟩

/-- A loop whose rounds are known. -/
theorem mapM_known {f : α → Setup β} {c : α → Prop} {g : α → β}
    (h : ∀ x y, f x = pure y ↔ c x ∧ y = g x) (xs : List α) (ys : List β) :
    xs.mapM f = pure ys ↔ (∀ x ∈ xs, c x) ∧ ys = xs.map g := by
  induction xs generalizing ys with
  | nil =>
    rw [List.mapM_nil, pure_iff]
    exact ⟨fun hys => ⟨by simp, hys⟩, And.right⟩
  | cons x xs ih =>
    rw [List.mapM_cons, bind_known (h x), bind_known ih, pure_iff, List.forall_mem_cons, and_assoc,
      List.map_cons]

/-- A loop whose rounds look something up. -/
theorem mapM_found {f : α → Setup β} {g : α → Option β} (h : ∀ x y, f x = pure y ↔ g x = some y)
    (xs : List α) (ys : List β) :
    xs.mapM f = pure ys ↔ (∀ x ∈ xs, (g x).isSome = true) ∧ ys = xs.filterMap g := by
  induction xs generalizing ys with
  | nil =>
    rw [List.mapM_nil, pure_iff]
    exact ⟨fun hys => ⟨by simp, hys⟩, And.right⟩
  | cons x xs ih =>
    rw [List.mapM_cons, List.forall_mem_cons]
    cases hx : g x with
    | none =>
      apply iff_of_false
      · intro hall
        obtain ⟨y, hy, -⟩ := bind_iff.mp hall
        rw [h, hx] at hy
        cases hy
      · rintro ⟨⟨hsome, -⟩, -⟩
        cases hsome
    | some found =>
      have hfirst : ∀ y, f x = pure y ↔ True ∧ y = found := by
        intro y
        rw [h, hx, Option.some.injEq, true_and, eq_comm]
      rw [bind_known hfirst, bind_known ih, pure_iff, List.filterMap_cons_some hx, true_and]
      simp only [Option.isSome_some, true_and]

end Rules

section Mail

variable (env : Environment) (config : CPoolFrontendConfig)

/-- The name before the colon of the mail server, and the port behind it. -/
def mailName : String := String.ofList (config.smtpServer.toList.takeWhile (· ≠ ':'))

def mailPort : List Char := (config.smtpServer.toList.dropWhile (· ≠ ':')).tail

/-- A host that was not found has no address. -/
def mailHost : UInt64 := ((env.gethostbyname (mailName config)).getD none).getD 0

def MailReady : Prop :=
  config.smtpEnabled = true →
    ':' ∈ config.smtpServer.toList ∧ mailHost env config ≠ 0 ∧
      (atoi (mailPort config)).isSome = true

def mailOf : Option HostAddress :=
  if config.smtpEnabled then
    some {
      ipv4 := (mailHost env config).toUInt32
      port := htons (UInt16.ofInt ((atoi (mailPort config)).getD 0)) }
  else none

/-- A value of the machine, where there is one. -/
theorem lift_known {α : Type} {o : Option α} {x : α} (d : α) :
    (liftM o : Setup α) = pure x ↔ o.isSome = true ∧ x = o.getD d := by
  cases o with
  | none => exact iff_of_false (fun h => nomatch lift_completes h) fun h => nomatch h.1
  | some y => exact pure_iff.trans ⟨fun h => ⟨rfl, h⟩, And.right⟩

theorem mailAddress_iff (name : String) (port : List Char) (address : HostAddress) :
    StartUp.mailAddress env name port = pure address ↔
      ((env.gethostbyname name).getD none).getD 0 ≠ 0 ∧ (atoi port).isSome = true ∧
        address = {
          ipv4 := (((env.gethostbyname name).getD none).getD 0).toUInt32
          port := htons (UInt16.ofInt ((atoi port).getD 0)) } := by
  unfold StartUp.mailAddress
  rw [bind_known fun host => lift_known none]
  cases hhost : env.gethostbyname name with
  | none => simp
  | some host =>
    by_cases haddr : host.getD 0 = 0
    · simp [haddr, throw_iff]
    · simp only [haddr, if_false, Option.getD_some]
      rw [bind_known fun number => lift_known 0, pure_iff]
      simp [haddr]

theorem smtpAddress_iff (address : HostAddress) :
    smtpAddress env config.smtpServer = pure address ↔
      ':' ∈ config.smtpServer.toList ∧ mailHost env config ≠ 0 ∧
        (atoi (mailPort config)).isSome = true ∧
      address = {
        ipv4 := (mailHost env config).toUInt32
        port := htons (UInt16.ofInt ((atoi (mailPort config)).getD 0)) } := by
  cases hcolon : config.smtpServer.toList.dropWhile (· ≠ ':') with
  | nil =>
    have hnone : ':' ∉ config.smtpServer.toList := by
      intro hmem
      have hall := List.dropWhile_eq_nil_iff.mp hcolon ':' hmem
      simp at hall
    apply iff_of_false
    · intro h
      unfold smtpAddress at h
      rw [hcolon] at h
      exact throw_completes h
    · exact fun h => hnone h.1
  | cons colon port =>
    have hsome : ':' ∈ config.smtpServer.toList := by
      by_contra hnone
      have hnil : config.smtpServer.toList.dropWhile (· ≠ ':') = [] := by
        apply List.dropWhile_eq_nil_iff.mpr
        intro c hc
        simpa using fun heq : c = ':' => hnone (heq ▸ hc)
      rw [hnil] at hcolon
      cases hcolon
    have hport : mailPort config = port := by rw [mailPort, hcolon, List.tail_cons]
    rw [StartUp.smtpAddress_colon env hcolon, mailAddress_iff, hport]
    exact (and_iff_right hsome).symm

theorem enableSmtp_iff (address : Option HostAddress) :
    enableSmtp env config = pure address ↔ MailReady env config ∧ address = mailOf env config := by
  unfold enableSmtp MailReady mailOf
  cases config.smtpEnabled with
  | false => simp [pure_iff]
  | true =>
    simp only [if_true, true_implies]
    rw [map_eq_pure_bind, bind_iff]
    simp only [smtpAddress_iff, pure_iff]
    constructor
    · rintro ⟨found, ⟨hcolon, hhost, hport, rfl⟩, rfl⟩
      exact ⟨⟨hcolon, hhost, hport⟩, rfl⟩
    · rintro ⟨⟨hcolon, hhost, hport⟩, rfl⟩
      exact ⟨_, ⟨hcolon, hhost, hport, rfl⟩, rfl⟩

end Mail

section Coins

variable (env : Environment) (config : CPoolFrontendConfig)

/-- What the backend of a coin needs. -/
structure BackendReady (coin : CCoinConfig) : Prop where
  defaultPayoutThreshold : (env.helpers.parseMoneyValue coin.defaultPayoutThreshold
    (infoOf env coin).rationalPartSize).isSome = true
  minimalAllowedPayout : (env.helpers.parseMoneyValue coin.minimalAllowedPayout
    (infoOf env coin).rationalPartSize).isSome = true
  confirmed : (infoOf env coin).minimalConfirmationsNumber ≤ coin.requiredConfirmations
  miningAddresses : ∀ addr ∈ coin.miningAddresses, env.helpers.checkAddress (infoOf env coin)
    addr.address (infoOf env coin).payoutAddressType = true
  nodes : ∀ node ∈ coin.getWorkNodes ++ coin.rpcNodes,
    node.type = "bitcoinrpc" ∨ node.type = "ethereumrpc"

/-- A coin and its algorithm are known, too. -/
structure CoinReady (coin : CCoinConfig) : Prop extends BackendReady env coin where
  known : (infoOf env coin).name ≠ ""
  algorithm : (env.coinLibrary (infoOf env coin).algorithm).name ≠ ""

def parametersOf (coin : CCoinConfig) : PoolBackendConfig where
  isMaster := config.isMaster
  dbPath := env.joinPath (databasePath env config.dbPath) (infoOf env coin).name
  defaultPayoutThreshold := (env.helpers.parseMoneyValue coin.defaultPayoutThreshold
    (infoOf env coin).rationalPartSize).getD 0
  minimalAllowedPayout := (env.helpers.parseMoneyValue coin.minimalAllowedPayout
    (infoOf env coin).rationalPartSize).getD 0
  requiredConfirmations := coin.requiredConfirmations
  keepRoundTime := (coin.keepRoundTime * 24 * 3600).toUInt64
  keepStatsTime := (coin.keepStatsTime * 60).toUInt64
  confirmationsCheckInterval := (coin.confirmationsCheckInterval * 60 * 1000000).toUInt64
  payoutInterval := (coin.payoutInterval * 60 * 1000000).toUInt64
  balanceCheckInterval := (coin.balanceCheckInterval * 60 * 1000000).toUInt64
  miningAddresses := coin.miningAddresses
  coinBaseMsg := if coin.coinbaseMsg = "" then config.poolName else coin.coinbaseMsg
  poolZAddr := coin.poolZAddr
  poolTAddr := coin.poolTAddr

/-- The client of a node; only one type keeps the credentials of the node. -/
def clientOf (parameters : PoolBackendConfig) (node : CNodeConfig) : NetworkClient :=
  if node.type = "bitcoinrpc" then .bitcoinRpc (totalThreads env config) node
  else .ethereumRpc (totalThreads env config) node.address parameters

/-- The backend of a coin, given the algorithms in the order of their servers. -/
def backendOf (algorithms : List String) (coin : CCoinConfig) : PoolBackend where
  config := parametersOf env config coin
  coinInfo := infoOf env coin
  getWorkClients := coin.getWorkNodes.map (clientOf env config (parametersOf env config coin))
  rpcClients := coin.rpcNodes.map (clientOf env config (parametersOf env config coin))
  profitSwitchCoeff :=
    if coin.profitSwitchCoeff ≠ .finite 0 then some coin.profitSwitchCoeff else none
  algoMetaStatistic := algorithms.idxOf (infoOf env coin).algorithm

theorem lookupCoin_iff (coin : CCoinConfig) (info : CoinInfo) :
    lookupCoin env coin = pure info ↔ (infoOf env coin).name ≠ "" ∧ info = infoOf env coin := by
  constructor
  · intro h
    have hinfo := lookupCoin_info h
    refine ⟨?_, hinfo⟩
    intro hname
    rw [infoOf] at hname
    simp only [lookupCoin, hname, if_true] at h
    obtain ⟨_, hthrow, _⟩ := bind_completes h
    exact throw_completes hthrow
  · rintro ⟨hname, rfl⟩
    rw [infoOf] at hname
    simp only [lookupCoin, hname, if_false]
    rfl

theorem createClient_iff (parameters : PoolBackendConfig) (node : CNodeConfig)
    (client : NetworkClient) :
    createClient (totalThreads env config) parameters node = pure client ↔
      (node.type = "bitcoinrpc" ∨ node.type = "ethereumrpc") ∧
        client = clientOf env config parameters node := by
  unfold createClient clientOf
  by_cases hbitcoin : node.type = "bitcoinrpc"
  · simp [hbitcoin, pure_iff]
  · by_cases hethereum : node.type = "ethereumrpc"
    · simp [hethereum, pure_iff]
    · simp [hbitcoin, hethereum, throw_iff]

theorem backendParameters_iff (coin : CCoinConfig) (parameters : PoolBackendConfig) :
    backendParameters env config.isMaster (databasePath env config.dbPath) config.poolName coin
      (infoOf env coin) = pure parameters ↔
    ((env.helpers.parseMoneyValue coin.defaultPayoutThreshold
        (infoOf env coin).rationalPartSize).isSome = true ∧
      (env.helpers.parseMoneyValue coin.minimalAllowedPayout
        (infoOf env coin).rationalPartSize).isSome = true ∧
      (infoOf env coin).minimalConfirmationsNumber ≤ coin.requiredConfirmations ∧
      ∀ addr ∈ coin.miningAddresses, env.helpers.checkAddress (infoOf env coin) addr.address
        (infoOf env coin).payoutAddressType = true) ∧
    parameters = parametersOf env config coin := by
  unfold backendParameters parametersOf
  cases env.helpers.parseMoneyValue coin.defaultPayoutThreshold
      (infoOf env coin).rationalPartSize with
  | none => simp [throw_iff]
  | some threshold =>
    cases env.helpers.parseMoneyValue coin.minimalAllowedPayout
        (infoOf env coin).rationalPartSize with
    | none => simp [throw_iff]
    | some payout =>
      simp only [check_iff, Option.isSome_some, true_and, Option.getD_some, UInt32.not_lt,
        and_assoc]
      apply and_congr_right
      intro _
      cases hfind : coin.miningAddresses.find? fun addr =>
          !env.helpers.checkAddress (infoOf env coin) addr.address
            (infoOf env coin).payoutAddressType with
      | none =>
        have hall : ∀ addr ∈ coin.miningAddresses, env.helpers.checkAddress (infoOf env coin)
            addr.address (infoOf env coin).payoutAddressType = true := by
          intro addr haddr
          simpa using List.find?_eq_none.mp hfind addr haddr
        rw [and_iff_right hall]
        exact pure_iff
      | some bad =>
        have hbad := List.find?_some hfind
        have hmem := List.mem_of_find?_eq_some hfind
        apply iff_of_false
        · exact fun h => throw_completes h
        · intro h
          rw [h.1 bad hmem] at hbad
          cases hbad

end Coins

section Algorithms

variable (env : Environment)

/-- The algorithms in the order of their first coins. -/
def addAlgorithm (algorithms : List String) (algorithm : String) : List String :=
  if algorithm ∈ algorithms then algorithms else algorithms ++ [algorithm]

def algorithmsOf (algorithms : List String) (coins : List CCoinConfig) : List String :=
  coins.foldl (fun algorithms coin => addAlgorithm algorithms (infoOf env coin).algorithm)
    algorithms

/-- The servers of a list of algorithms; the last one is found first. -/
def serversOf (algorithms : List String) : AlgoServers where
  knownAlgo := algorithms.zipIdx.reverse
  algoMetaStatistic := algorithms.map env.coinLibrary

theorem mem_addAlgorithm {algorithms : List String} {algorithm other : String} :
    other ∈ addAlgorithm algorithms algorithm ↔ other ∈ algorithms ∨ other = algorithm := by
  unfold addAlgorithm
  split
  · rename_i hmem
    exact ⟨.inl, fun h => h.elim id fun heq => heq ▸ hmem⟩
  · rw [List.mem_append, List.mem_singleton]

theorem addAlgorithm_nodup {algorithms : List String} (h : algorithms.Nodup)
    (algorithm : String) : (addAlgorithm algorithms algorithm).Nodup := by
  unfold addAlgorithm
  split
  · exact h
  · rename_i hnew
    exact List.nodup_append.mpr ⟨h, List.nodup_singleton _, by
      intro a ha b hb heq
      rw [List.mem_singleton.mp hb] at heq
      exact hnew (heq ▸ ha)⟩

theorem addAlgorithm_grows (algorithms : List String) (algorithm : String) :
    algorithms <+: addAlgorithm algorithms algorithm := by
  unfold addAlgorithm
  split
  · exact List.prefix_refl _
  · exact List.prefix_append _ _

theorem algorithmsOf_grows (algorithms : List String) (coins : List CCoinConfig) :
    algorithms <+: algorithmsOf env algorithms coins := by
  induction coins generalizing algorithms with
  | nil => exact List.prefix_refl _
  | cons coin coins ih => exact (addAlgorithm_grows _ _).trans (ih _)

/-- The place of an algorithm stays its place. -/
theorem idxOf_grows {before after : List String} (h : before <+: after) {algorithm : String}
    (hmem : algorithm ∈ before) : after.idxOf algorithm = before.idxOf algorithm := by
  obtain ⟨added, rfl⟩ := h
  exact List.idxOf_append_of_mem hmem

theorem lookup_serversOf {algorithms : List String} (h : algorithms.Nodup) (algorithm : String) :
    (serversOf env algorithms).knownAlgo.lookup algorithm =
      if algorithm ∈ algorithms then some (algorithms.idxOf algorithm) else none := by
  induction algorithms using List.reverseRecOn with
  | nil => rfl
  | append_singleton before last ih =>
    obtain ⟨hbefore, -, hapart⟩ := List.nodup_append.mp h
    have hlast : last ∉ before := fun hmem => hapart last hmem last (by simp) rfl
    have hknown : (serversOf env (before ++ [last])).knownAlgo =
        (last, before.length) :: (serversOf env before).knownAlgo := by
      simp [serversOf, List.zipIdx_append]
    rw [hknown, List.lookup_cons]
    by_cases hsame : algorithm = last
    · subst hsame
      simp [List.idxOf_append_of_notMem hlast]
    · rw [beq_eq_false_iff_ne.mpr hsame, ih hbefore]
      by_cases hmem : algorithm ∈ before
      · simp [hmem, List.idxOf_append_of_mem hmem]
      · simp [hmem, hsame]

theorem algoServer_iff {algorithms : List String} (h : algorithms.Nodup) (info : CoinInfo)
    (result : Nat × AlgoServers) :
    algoServer env info (serversOf env algorithms) = pure result ↔
      (info.algorithm ∈ algorithms ∨ (env.coinLibrary info.algorithm).name ≠ "") ∧
        result = ((addAlgorithm algorithms info.algorithm).idxOf info.algorithm,
          serversOf env (addAlgorithm algorithms info.algorithm)) := by
  unfold algoServer addAlgorithm
  rw [lookup_serversOf env h]
  by_cases hmem : info.algorithm ∈ algorithms
  · simp [hmem, pure_iff]
  · by_cases hname : (env.coinLibrary info.algorithm).name = ""
    · simp [hmem, hname, throw_iff]
    · simp only [hmem, hname, if_false]
      rw [pure_iff, and_iff_right (.inr hname)]
      simp [serversOf, List.zipIdx_append, List.idxOf_append_of_notMem hmem]

end Algorithms

section Backends

variable (env : Environment) (config : CPoolFrontendConfig)

theorem initBackend_iff {algorithms : List String} (h : algorithms.Nodup) (coin : CCoinConfig)
    (result : PoolBackend × AlgoServers) :
    initBackend env config.isMaster (databasePath env config.dbPath) config.poolName
      (totalThreads env config) coin (infoOf env coin) (serversOf env algorithms) = pure result ↔
    (BackendReady env coin ∧ ((infoOf env coin).algorithm ∈ algorithms ∨
      (env.coinLibrary (infoOf env coin).algorithm).name ≠ "")) ∧
    result = (backendOf env config (addAlgorithm algorithms (infoOf env coin).algorithm) coin,
      serversOf env (addAlgorithm algorithms (infoOf env coin).algorithm)) := by
  unfold initBackend
  rw [bind_known (backendParameters_iff env config coin),
    bind_known (mapM_known (createClient_iff env config _) coin.getWorkNodes),
    bind_known (mapM_known (createClient_iff env config _) coin.rpcNodes),
    bind_known (algoServer_iff env h (infoOf env coin)), pure_iff]
  constructor
  · rintro ⟨⟨hdefault, hminimal, hconfirmed, haddresses⟩, hgetWork, hrpc, halgorithm, hresult⟩
    refine ⟨⟨⟨hdefault, hminimal, hconfirmed, haddresses, ?_⟩, halgorithm⟩, hresult⟩
    intro node hnode
    cases List.mem_append.mp hnode with
    | inl hmem => exact hgetWork node hmem
    | inr hmem => exact hrpc node hmem
  · rintro ⟨⟨hready, halgorithm⟩, hresult⟩
    refine ⟨⟨hready.defaultPayoutThreshold, hready.minimalAllowedPayout, hready.confirmed,
      hready.miningAddresses⟩, ?_, ?_, halgorithm, hresult⟩
    · intro node hnode
      exact hready.nodes node (List.mem_append_left _ hnode)
    · intro node hnode
      exact hready.nodes node (List.mem_append_right _ hnode)

/-- Later coins only add servers behind those of the earlier ones. -/
theorem backendOf_grows {before after : List String} (h : before <+: after) {coin : CCoinConfig}
    (hmem : (infoOf env coin).algorithm ∈ before) :
    backendOf env config after coin = backendOf env config before coin := by
  simp only [backendOf, idxOf_grows h hmem]

theorem initBackends_iff {algorithms : List String} (h : algorithms.Nodup)
    (coins : List CCoinConfig) (result : List PoolBackend × AlgoServers) :
    initBackends env config.isMaster (databasePath env config.dbPath) config.poolName
      (totalThreads env config) (coins.map fun coin => (coin, infoOf env coin))
      (serversOf env algorithms) = pure result ↔
    (∀ coin ∈ coins, BackendReady env coin ∧ ((infoOf env coin).algorithm ∈ algorithms ∨
      (env.coinLibrary (infoOf env coin).algorithm).name ≠ "")) ∧
    result = (coins.map (backendOf env config (algorithmsOf env algorithms coins)),
      serversOf env (algorithmsOf env algorithms coins)) := by
  induction coins generalizing algorithms result with
  | nil =>
    rw [List.map_nil, initBackends, pure_iff]
    exact ⟨fun hresult => ⟨by simp, hresult⟩, And.right⟩
  | cons coin coins ih =>
    rw [List.map_cons, initBackends, bind_known (initBackend_iff env config h coin),
      bind_known (ih (addAlgorithm_nodup h _)), pure_iff, List.forall_mem_cons, ← and_assoc]
    have hfirst : backendOf env config (algorithmsOf env algorithms (coin :: coins)) coin =
        backendOf env config (addAlgorithm algorithms (infoOf env coin).algorithm) coin :=
      backendOf_grows env config (algorithmsOf_grows env _ coins)
        (mem_addAlgorithm.mpr (.inr rfl))
    rw [List.map_cons, hfirst]
    apply and_congr ?_ Iff.rfl
    apply and_congr_right
    rintro ⟨-, halgorithm⟩
    -- a later coin with the same algorithm needs no more than the first one
    have hsame : ∀ other, ((infoOf env other).algorithm ∈
          addAlgorithm algorithms (infoOf env coin).algorithm ∨
        (env.coinLibrary (infoOf env other).algorithm).name ≠ "") ↔
        ((infoOf env other).algorithm ∈ algorithms ∨
          (env.coinLibrary (infoOf env other).algorithm).name ≠ "") := by
      intro other
      rw [mem_addAlgorithm, or_assoc]
      constructor
      · rintro (hmem | heq | hname)
        · exact .inl hmem
        · rw [heq]
          exact halgorithm
        · exact .inr hname
      · rintro (hmem | hname)
        · exact .inl hmem
        · exact .inr (.inr hname)
    simp only [hsame]

/-- The coins, the backends in their order, and the servers. -/
def coreOf : Core where
  coinList := config.coins.map (infoOf env)
  backends := config.coins.map (backendOf env config (algorithmsOf env [] config.coins))
  servers := serversOf env (algorithmsOf env [] config.coins)

theorem initCore_iff (core : Core) :
    initCore env config = pure core ↔
      (∀ coin ∈ config.coins, CoinReady env coin) ∧ core = coreOf env config := by
  have hempty : ({} : AlgoServers) = serversOf env [] := rfl
  unfold initCore
  rw [bind_known (mapM_known (lookupCoin_iff env) config.coins), zip_infos, hempty,
    bind_known (initBackends_iff env config List.nodup_nil config.coins), pure_iff, ← and_assoc]
  apply and_congr ?_ Iff.rfl
  constructor
  · rintro ⟨hknown, hready⟩ coin hcoin
    obtain ⟨hbackend, halgorithm⟩ := hready coin hcoin
    exact ⟨hbackend, hknown coin hcoin, halgorithm.resolve_left (by simp)⟩
  · intro hready
    exact ⟨fun coin hcoin => (hready coin hcoin).known, fun coin hcoin =>
      ⟨(hready coin hcoin).toBackendReady, .inr (hready coin hcoin).algorithm⟩⟩

end Backends

section Instances

variable (env : Environment)

/-- The first backend of a name in the sorted list. -/
def backendNamed (backends : List PoolBackend) (name : String) : Option PoolBackend :=
  backends.find? fun backend => backend.coinInfo.name = name

def linkedOf (backends : List PoolBackend) (instanceConfig : CInstanceConfig) :
    List PoolBackend :=
  instanceConfig.backends.filterMap (backendNamed backends)

/-- The server of the last linked backend. -/
def instanceOf (backends : List PoolBackend) (instanceConfig : CInstanceConfig) :
    PoolInstance where
  linkedBackends := linkedOf backends instanceConfig
  algoMetaStatistic :=
    (linkedOf backends instanceConfig).getLast?.map PoolBackend.algoMetaStatistic

/-- What follows an algorithm that has a name is that algorithm again. -/
def Follows (algo next : String) : Prop := algo = "" ∨ next = algo

structure InstanceReady (backends : List PoolBackend) (instIdxE : Nat)
    (instanceConfig : CInstanceConfig) (instIdx : Nat) : Prop where
  linked : ∀ name ∈ instanceConfig.backends, (backendNamed backends name).isSome = true
  fabric : env.poolInstanceFabric ((linkedOf backends instanceConfig).map PoolBackend.coinInfo)
    instanceConfig.type instanceConfig.protocol instIdx instIdxE instanceConfig.instanceConfig =
      true
  algorithms : ((linkedOf backends instanceConfig).map
    fun backend => backend.coinInfo.algorithm).IsChain Follows

theorem linkBackend_iff {backends : List PoolBackend}
    (hsorted : backends.Pairwise fun l r => l.coinInfo.name ≤ r.coinInfo.name)
    (instanceName name : String) (backend : PoolBackend) :
    linkBackend backends instanceName name = pure backend ↔
      backendNamed backends name = some backend := by
  have hfind : Server.findByName (fun b : PoolBackend => b.coinInfo.name) backends name =
      backendNamed backends name := findByName_find hsorted name
  unfold linkBackend
  rw [hfind]
  cases backendNamed backends name with
  | none => exact iff_of_false throw_completes (Option.some_ne_none backend).symm
  | some found => exact pure_iff.trans (eq_comm.trans Option.some_inj.symm)

theorem attachBackends_iff (instanceName algo : String) (linked : List PoolBackend)
    (server result : Option Nat) :
    attachBackends instanceName linked algo server = pure result ↔
      (algo :: linked.map fun backend => backend.coinInfo.algorithm).IsChain Follows ∧
        result = (linked.getLast?.map PoolBackend.algoMetaStatistic).or server := by
  induction linked generalizing algo server with
  | nil =>
    rw [attachBackends, pure_iff]
    exact ⟨fun h => ⟨.singleton _, h⟩, And.right⟩
  | cons first rest ih =>
    constructor
    · intro h
      obtain ⟨hfollows, hrest⟩ := attachBackends_cons h
      exact ⟨.cons_cons hfollows ((ih _ _).mp hrest).1, attachBackends_last h⟩
    · rintro ⟨hchain, rfl⟩
      rw [List.map_cons, List.isChain_cons_cons] at hchain
      obtain ⟨hfollows, hrest⟩ := hchain
      have hpasses : ¬ (algo ≠ "" ∧ first.coinInfo.algorithm ≠ algo) := by
        rintro ⟨hnamed, hdiffers⟩
        exact hfollows.elim hnamed hdiffers
      unfold attachBackends
      rw [if_neg hpasses, ih, and_iff_right hrest]
      cases rest with
      | nil => rfl
      | cons second others => simp [List.getLast?_cons]

theorem initInstance_iff {backends : List PoolBackend}
    (hsorted : backends.Pairwise fun l r => l.coinInfo.name ≤ r.coinInfo.name) (instIdxE : Nat)
    (instanceConfig : CInstanceConfig) (instIdx : Nat) (inst : PoolInstance) :
    initInstance env backends instIdxE instanceConfig instIdx = pure inst ↔
      InstanceReady env backends instIdxE instanceConfig instIdx ∧
        inst = instanceOf backends instanceConfig := by
  have hchain : ∀ algorithms : List String,
      ("" :: algorithms).IsChain Follows ↔ algorithms.IsChain Follows := by
    intro algorithms
    rw [List.isChain_cons]
    exact and_iff_right fun _ _ => .inl rfl
  unfold initInstance
  rw [bind_known (mapM_found (linkBackend_iff hsorted instanceConfig.name)
    instanceConfig.backends)]
  have hready : InstanceReady env backends instIdxE instanceConfig instIdx ↔
      (∀ name ∈ instanceConfig.backends, (backendNamed backends name).isSome = true) ∧
      env.poolInstanceFabric ((linkedOf backends instanceConfig).map PoolBackend.coinInfo)
        instanceConfig.type instanceConfig.protocol instIdx instIdxE
        instanceConfig.instanceConfig = true ∧
      ((linkedOf backends instanceConfig).map fun backend =>
        backend.coinInfo.algorithm).IsChain Follows :=
    ⟨fun h => ⟨h.linked, h.fabric, h.algorithms⟩, fun h => ⟨h.1, h.2.1, h.2.2⟩⟩
  rw [hready, and_assoc]
  apply and_congr_right
  intro _
  rw [← linkedOf]
  cases env.poolInstanceFabric ((linkedOf backends instanceConfig).map PoolBackend.coinInfo)
      instanceConfig.type instanceConfig.protocol instIdx instIdxE
      instanceConfig.instanceConfig with
  | false => simp [throw_iff]
  | true =>
    simp only [Bool.not_true, Bool.false_eq_true, if_false, true_and]
    rw [bind_known (attachBackends_iff instanceConfig.name "" (linkedOf backends instanceConfig)
      none), hchain, Option.or_none, pure_iff]
    exact Iff.rfl

end Instances

section SetUp

variable (env : Environment) (config : CPoolFrontendConfig)

/-- The backends as the sort leaves them. -/
abbrev backendsOf : List PoolBackend := sortByName env (coreOf env config).backends

/-- What the set-up takes. -/
structure Ready : Prop where
  mail : MailReady env config
  coins : ∀ coin ∈ config.coins, CoinReady env coin
  instances : ∀ entry ∈ config.instances.zipIdx,
    InstanceReady env (backendsOf env config) config.instances.length entry.1 entry.2

/-- What it makes. -/
def poolOf : PoolContext where
  isMaster := config.isMaster
  databasePath := databasePath env config.dbPath
  smtpAddress := mailOf env config
  coinList := config.coins.map (infoOf env)
  backends := backendsOf env config
  algoMetaStatistic := (algorithmsOf env [] config.coins).map env.coinLibrary
  threadPool := workerThreads env config.workerThreadsNum
  totalThreadsNum := totalThreads env config
  instances := config.instances.map (instanceOf (backendsOf env config))
  httpServer := {
    port := config.httpPort.toUInt16
    threadsNum := httpThreads config.httpThreadsNum }

theorem setUp_iff (context : PoolContext) :
    setUp env config = pure context ↔ Ready env config ∧ context = poolOf env config := by
  have hinstances : ∀ (entry : CInstanceConfig × Nat) (inst : PoolInstance),
      initInstance env (backendsOf env config) config.instances.length entry.1
        entry.2 = pure inst ↔
      InstanceReady env (backendsOf env config) config.instances.length entry.1 entry.2 ∧
        inst = instanceOf (backendsOf env config) entry.1 := by
    intro entry inst
    exact initInstance_iff env (sortByName_sorted env _) _ entry.1 entry.2 inst
  have hall : config.instances.zipIdx.map (fun entry =>
      instanceOf (backendsOf env config) entry.1) =
        config.instances.map (instanceOf (backendsOf env config)) := by
    rw [← Function.comp_def, ← List.map_map, List.zipIdx_map_fst]
  unfold setUp
  rw [bind_known (enableSmtp_iff env config), bind_known (initCore_iff env config),
    bind_known (mapM_known hinstances config.instances.zipIdx), hall, pure_iff]
  constructor
  · rintro ⟨hmail, hcoins, hready, hcontext⟩
    exact ⟨⟨hmail, hcoins, hready⟩, hcontext⟩
  · rintro ⟨hready, hcontext⟩
    exact ⟨hready.mail, hready.coins, hready.instances, hcontext⟩

/-- A start completes with a pool exactly if the document is a configuration that is ready, and
the pool is the one the configuration describes. -/
theorem main_iff (document : Value) (context : PoolContext) :
    main env (declared config) document = pure context ↔
      DocumentSafe document ∧ ∃ loaded,
        ofObject (configMembers Getter.string) document = some loaded ∧
          Ready env loaded ∧ context = poolOf env loaded := by
  unfold main
  by_cases hsafe : DocumentSafe document
  · obtain ⟨accepted, loaded, error, hrun, hend⟩ := load_ends config hsafe ""
    rw [hrun, and_iff_right hsafe]
    cases hend with
    | inl hend =>
      obtain ⟨rfl, hconfig⟩ := hend
      rw [hconfig]
      have hsetUp : setUp env loaded = pure context ↔
          Ready env loaded ∧ context = poolOf env loaded := setUp_iff env loaded context
      refine hsetUp.trans ⟨fun h => ⟨loaded, rfl, h⟩, ?_⟩
      rintro ⟨other, hother, h⟩
      cases hother
      exact h
    | inr hend =>
      obtain ⟨rfl, hnone⟩ := hend
      rw [hnone]
      exact iff_of_false throw_completes fun h => nomatch h.choose_spec.1
  · rw [load_aborts config hsafe ""]
    exact iff_of_false (fun h => nomatch h) fun h => hsafe h.1

end SetUp

end SetUpOutcome
