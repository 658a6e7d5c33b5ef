import PoolFrontend.ConfigSections
import PoolFrontend.FeePlanCodec

/-!
# Which configurations are accepted

A document whose list elements are objects and whose strings have no NUL is accepted exactly
when it describes a configuration, and then that configuration is loaded.
-/
namespace ConfigAcceptance

open Json Config ConfigOutcome ConfigSections FeePlanCodec

/-- A string member, the whole string. -/
def text : Getter String where
  is := Value.isString
  get := Value.getString
  admits v := by cases v <;> rfl

/-- Each element is an object that describes the record in its place. -/
def Describes {α : Type} (P : Members → α → Prop) (ms : Members) (name : String)
    (records : List α) : Prop :=
  ∃ elements, ms.lookup name = some (.array elements) ∧
    List.Forall₂ (fun element record => ∃ ms, element = .object ms ∧ P ms record) elements records

/-- Long polling is on unless it is switched off. -/
structure NodeIs (ms : Members) (node : CNodeConfig) : Prop where
  type : required text ms "type" = some node.type
  address : required text ms "address" = some node.address
  login : Json.optional text ms "login" "" = some node.login
  password : Json.optional text ms "password" "" = some node.password
  wallet : Json.optional text ms "wallet" "" = some node.wallet
  longPollEnabled :
    Json.optional Getter.bool ms "longPollEnabled" true = some node.longPollEnabled

structure FeeIs (ms : Members) (fee : CFeeConfig) : Prop where
  address : required text ms "address" = some fee.address
  percentage : required float ms "percentage" = some fee.percentage

structure MiningAddressIs (ms : Members) (config : CMiningAddressConfig) : Prop where
  address : required text ms "address" = some config.address
  privateKey : Json.optional text ms "privateKey" "" = some config.privateKey
  weight : required Getter.uint ms "weight" = some config.weight

/-- The share difficulty is never rejected and left open here. -/
structure InstanceIs (ms : Members) (config : CInstanceConfig) : Prop where
  name : required text ms "name" = some config.name
  type : required text ms "type" = some config.type
  protocol : required text ms "protocol" = some config.protocol
  backends : ms.lookup "backends" = some (.array (config.backends.map Value.string))
  port : Json.optional Getter.uint ms "port" 0 = some config.port
  instanceConfig : config.instanceConfig = .object ms

/-- The lists, the thresholds and the intervals are required, all other members have defaults. -/
structure CoinIs (ms : Members) (coin : CCoinConfig) : Prop where
  name : required text ms "name" = some coin.name
  getWorkNodes : Describes NodeIs ms "getWorkNodes" coin.getWorkNodes
  rpcNodes : Describes NodeIs ms "RPCNodes" coin.rpcNodes
  fees : Describes FeeIs ms "fees" coin.fees
  requiredConfirmations :
    required Getter.uint ms "requiredConfirmations" = some coin.requiredConfirmations
  defaultPayoutThreshold :
    required text ms "defaultPayoutThreshold" = some coin.defaultPayoutThreshold
  minimalAllowedPayout : required text ms "minimalAllowedPayout" = some coin.minimalAllowedPayout
  keepRoundTime : required Getter.uint ms "keepRoundTime" = some coin.keepRoundTime
  keepStatsTime : required Getter.uint ms "keepStatsTime" = some coin.keepStatsTime
  confirmationsCheckInterval :
    required Getter.uint ms "confirmationsCheckInterval" = some coin.confirmationsCheckInterval
  payoutInterval : required Getter.uint ms "payoutInterval" = some coin.payoutInterval
  balanceCheckInterval :
    required Getter.uint ms "balanceCheckInterval" = some coin.balanceCheckInterval
  statisticCheckInterval :
    required Getter.uint ms "statisticCheckInterval" = some coin.statisticCheckInterval
  shareTarget : required Getter.uint ms "shareTarget" = some coin.shareTarget
  stratumWorkLifeTime :
    Json.optional Getter.uint ms "stratumWorkLifeTime" 0 = some coin.stratumWorkLifeTime
  miningAddresses : Describes MiningAddressIs ms "miningAddresses" coin.miningAddresses
  coinbaseMsg : Json.optional text ms "coinbaseMsg" "" = some coin.coinbaseMsg
  profitSwitchCoeff :
    Json.optional float ms "profitSwitchCoeff" (.finite 0) = some coin.profitSwitchCoeff
  poolZAddr : Json.optional text ms "pool_zaddr" "" = some coin.poolZAddr
  poolTAddr : Json.optional text ms "pool_taddr" "" = some coin.poolTAddr

/-- The numbers of threads, the password hashes and the switches of the mail have defaults. -/
structure FrontendIs (ms : Members) (config : CPoolFrontendConfig) : Prop where
  isMaster : required Getter.bool ms "isMaster" = some config.isMaster
  httpPort : required Getter.uint ms "httpPort" = some config.httpPort
  workerThreadsNum :
    Json.optional Getter.uint ms "workerThreadsNum" 0 = some config.workerThreadsNum
  httpThreadsNum : Json.optional Getter.uint ms "httpThreadsNum" 0 = some config.httpThreadsNum
  adminPasswordHash :
    Json.optional text ms "adminPasswordHash" "" = some config.adminPasswordHash
  observerPasswordHash :
    Json.optional text ms "observerPasswordHash" "" = some config.observerPasswordHash
  dbPath : required text ms "dbPath" = some config.dbPath
  poolName : required text ms "poolName" = some config.poolName
  poolHostProtocol : required text ms "poolHostProtocol" = some config.poolHostProtocol
  poolHostAddress : required text ms "poolHostAddress" = some config.poolHostAddress
  poolActivateLinkPrefix :
    required text ms "poolActivateLinkPrefix" = some config.poolActivateLinkPrefix
  poolChangePasswordLinkPrefix :
    required text ms "poolChangePasswordLinkPrefix" = some config.poolChangePasswordLinkPrefix
  poolActivate2faLinkPrefix :
    required text ms "poolActivate2faLinkPrefix" = some config.poolActivate2faLinkPrefix
  poolDeactivate2faLinkPrefix :
    required text ms "poolDeactivate2faLinkPrefix" = some config.poolDeactivate2faLinkPrefix
  smtpEnabled : required Getter.bool ms "smtpEnabled" = some config.smtpEnabled
  smtpServer : required text ms "smtpServer" = some config.smtpServer
  smtpLogin : required text ms "smtpLogin" = some config.smtpLogin
  smtpPassword : required text ms "smtpPassword" = some config.smtpPassword
  smtpSenderAddress : required text ms "smtpSenderAddress" = some config.smtpSenderAddress
  smtpUseSmtps : Json.optional Getter.bool ms "smtpUseSmtps" false = some config.smtpUseSmtps
  smtpUseStartTls :
    Json.optional Getter.bool ms "smtpUseStartTLS" true = some config.smtpUseStartTls

/-- The document has an object of its own members and the two lists. -/
structure ConfigIs (ms : Members) (config : CPoolFrontendConfig) : Prop where
  frontend : ∃ object, ms.lookup "poolfrontend" = some (.object object) ∧ FrontendIs object config
  coins : Describes CoinIs ms "coins" config.coins
  instances : Describes InstanceIs ms "instances" config.instances

section Clean

variable {ms : Members}

/-- In a clean document a string is read whole. -/
theorem clean_required (h : Clean (.object ms)) (name : String) :
    required Getter.string ms name = required text ms name := by
  rw [required, required]
  cases hv : ms.lookup name with
  | none => rfl
  | some v =>
    cases clean_lookup h hv with
    | string s hs => exact congrArg some (cString_nulFree hs)
    | _ => rfl

theorem clean_optional (h : Clean (.object ms)) (name default : String) :
    Json.optional Getter.string ms name default = Json.optional text ms name default := by
  rw [Json.optional, Json.optional]
  cases hv : ms.lookup name with
  | none => rfl
  | some v =>
    cases clean_lookup h hv with
    | string s hs => exact congrArg some (cString_nulFree hs)
    | _ => rfl

/-- The texts of a clean list. -/
theorem clean_texts {elements : List Value} (h : ∀ element ∈ elements, Clean element)
    {texts : List String} (hread : elements.mapM Getter.string.get = some texts) :
    elements = texts.map Value.string := by
  induction elements generalizing texts with
  | nil =>
    cases hread
    rfl
  | cons element rest ih =>
    rw [List.mapM_cons] at hread
    obtain ⟨s, hs, hread⟩ := Option.bind_eq_some_iff.mp hread
    obtain ⟨others, hothers, hread⟩ := Option.bind_eq_some_iff.mp hread
    cases hread
    have hrest := ih (fun v hv => h v (List.mem_cons_of_mem _ hv)) hothers
    have helement : element = .string s := by
      cases h element List.mem_cons_self with
      | string t ht =>
        have hget : some (cString t) = some s := hs
        rw [cString_nulFree ht] at hget
        cases hget
        rfl
      | _ => cases hs
    rw [helement, hrest]
    rfl

/-- Texts without NUL are read as they stand. -/
theorem texts_read {texts : List String} (h : Clean (.array (texts.map Value.string))) :
    (texts.map Value.string).mapM Getter.string.get = some texts := by
  induction texts with
  | nil => rfl
  | cons s rest ih =>
    have hclean := clean_elements h
    have hrest := ih (.array _ fun v hv => hclean v (List.mem_cons_of_mem _ hv))
    have hs : Getter.string.get (.string s) = some s := by
      cases hclean (.string s) List.mem_cons_self with
      | string _ hs => exact congrArg some (cString_nulFree hs)
    rw [List.map_cons, List.mapM_cons, hs, hrest]
    rfl

/-- A list of strings is read exactly where it is one. -/
theorem clean_strings (h : Clean (.object ms)) (name : String) (texts : List String) :
    strings Getter.string ms name = some texts ↔
      ms.lookup name = some (.array (texts.map Value.string)) := by
  constructor
  · intro hread
    obtain ⟨_, hfound, hread⟩ := Option.bind_eq_some_iff.mp hread
    obtain ⟨v, hv, harray⟩ := Option.bind_eq_some_iff.mp hfound
    cases v with
    | array xs =>
      cases harray
      rw [hv, clean_texts (clean_elements (clean_lookup h hv)) hread]
    | _ => cases harray
  · intro hv
    rw [strings, required, hv]
    exact texts_read (clean_lookup h hv)

/-- A record that is read is described, and one that is described can be read; the same for each
kind of record. -/
theorem node_some (h : Clean (.object ms)) {node : CNodeConfig}
    (hread : nodeMembers Getter.string ms = some node) : NodeIs ms node := by
  simp only [nodeMembers, clean_required h, clean_optional h] at hread
  obtain ⟨_, htype, hread⟩ := Option.bind_eq_some_iff.mp hread
  obtain ⟨_, haddress, hread⟩ := Option.bind_eq_some_iff.mp hread
  obtain ⟨_, hlogin, hread⟩ := Option.bind_eq_some_iff.mp hread
  obtain ⟨_, hpassword, hread⟩ := Option.bind_eq_some_iff.mp hread
  obtain ⟨_, hwallet, hread⟩ := Option.bind_eq_some_iff.mp hread
  obtain ⟨_, hlongPoll, hread⟩ := Option.bind_eq_some_iff.mp hread
  cases hread
  exact ⟨htype, haddress, hlogin, hpassword, hwallet, hlongPoll⟩

theorem node_isSome (h : Clean (.object ms)) {node : CNodeConfig} (hnode : NodeIs ms node) :
    (nodeMembers Getter.string ms).isSome = true := by
  simp [nodeMembers, clean_required h, clean_optional h, hnode.type, hnode.address, hnode.login,
    hnode.password, hnode.wallet, hnode.longPollEnabled]

theorem fee_some (h : Clean (.object ms)) {fee : CFeeConfig}
    (hread : feeMembers Getter.string ms = some fee) : FeeIs ms fee := by
  simp only [feeMembers, clean_required h] at hread
  obtain ⟨_, haddress, hread⟩ := Option.bind_eq_some_iff.mp hread
  obtain ⟨_, hpercentage, hread⟩ := Option.bind_eq_some_iff.mp hread
  cases hread
  exact ⟨haddress, hpercentage⟩

theorem fee_isSome (h : Clean (.object ms)) {fee : CFeeConfig} (hfee : FeeIs ms fee) :
    (feeMembers Getter.string ms).isSome = true := by
  simp [feeMembers, clean_required h, hfee.address, hfee.percentage]

theorem miningAddress_some (h : Clean (.object ms)) {config : CMiningAddressConfig}
    (hread : miningAddressMembers Getter.string ms = some config) : MiningAddressIs ms config := by
  simp only [miningAddressMembers, clean_required h, clean_optional h] at hread
  obtain ⟨_, haddress, hread⟩ := Option.bind_eq_some_iff.mp hread
  obtain ⟨_, hprivateKey, hread⟩ := Option.bind_eq_some_iff.mp hread
  obtain ⟨_, hweight, hread⟩ := Option.bind_eq_some_iff.mp hread
  cases hread
  exact ⟨haddress, hprivateKey, hweight⟩

theorem miningAddress_isSome (h : Clean (.object ms)) {config : CMiningAddressConfig}
    (hconfig : MiningAddressIs ms config) :
    (miningAddressMembers Getter.string ms).isSome = true := by
  simp [miningAddressMembers, clean_required h, clean_optional h, hconfig.address,
    hconfig.privateKey, hconfig.weight]

theorem instance_some (h : Clean (.object ms)) {config : CInstanceConfig}
    (hread : instanceMembers Getter.string ms = some config) : InstanceIs ms config := by
  simp only [instanceMembers, clean_required h] at hread
  obtain ⟨_, hname, hread⟩ := Option.bind_eq_some_iff.mp hread
  obtain ⟨_, htype, hread⟩ := Option.bind_eq_some_iff.mp hread
  obtain ⟨_, hprotocol, hread⟩ := Option.bind_eq_some_iff.mp hread
  obtain ⟨_, hbackends, hread⟩ := Option.bind_eq_some_iff.mp hread
  obtain ⟨_, hport, hread⟩ := Option.bind_eq_some_iff.mp hread
  cases hread
  exact ⟨hname, htype, hprotocol, (clean_strings h _ _).mp hbackends, hport, rfl⟩

theorem instance_isSome (h : Clean (.object ms)) {config : CInstanceConfig}
    (hconfig : InstanceIs ms config) : (instanceMembers Getter.string ms).isSome = true := by
  simp [instanceMembers, clean_required h, hconfig.name, hconfig.type, hconfig.protocol,
    (clean_strings h _ _).mpr hconfig.backends, hconfig.port]

section Lists

variable {α : Type} {f : Members → Option α} {P : Members → α → Prop} {name : String}
  {elements : List Value}

/-- The records stand in the order of their elements. -/
theorem mapM_some (h : ∀ ms x, Clean (.object ms) → f ms = some x → P ms x)
    {records : List α} (hclean : ∀ element ∈ elements, Clean element)
    (hread : elements.mapM (ofObject f) = some records) :
    List.Forall₂ (fun element record => ∃ ms, element = .object ms ∧ P ms record)
      elements records := by
  have hall := (mapM_iff (fun _ _ => Iff.rfl) elements records).mp hread
  apply ((List.forall₂_and_left _ _).mpr ⟨hclean, hall⟩).imp
  intro element record hboth
  obtain ⟨helement, hrecord⟩ := hboth
  cases element with
  | object ms => exact ⟨ms, rfl, h ms record helement hrecord⟩
  | _ => cases hrecord

theorem mapM_isSome (h : ∀ ms x, Clean (.object ms) → P ms x → (f ms).isSome = true)
    {records : List α} (hclean : ∀ element ∈ elements, Clean element)
    (hall : List.Forall₂ (fun element record => ∃ ms, element = .object ms ∧ P ms record)
      elements records) : (elements.mapM (ofObject f)).isSome = true := by
  induction hall with
  | nil => rfl
  | cons helement _ ih =>
    obtain ⟨ms, rfl, hrecord⟩ := helement
    have hrest := ih fun v hv => hclean v (List.mem_cons_of_mem _ hv)
    obtain ⟨x, hx⟩ := Option.isSome_iff_exists.mp (h ms _ (hclean _ List.mem_cons_self) hrecord)
    obtain ⟨xs, hxs⟩ := Option.isSome_iff_exists.mp hrest
    have hread : ofObject f (.object ms) = some x := hx
    rw [List.mapM_cons, hread, hxs]
    rfl

/-- A list of the document that is read is described. -/
theorem list_some (h : ∀ ms x, Clean (.object ms) → f ms = some x → P ms x)
    (hclean : Clean (.object ms)) (helements : required Getter.array ms name = some elements)
    {records : List α} (hread : elements.mapM (ofObject f) = some records) :
    Describes P ms name records := by
  have hfound := (required_array_iff _ _ _).mp helements
  exact ⟨elements, hfound, mapM_some h (clean_elements (clean_lookup hclean hfound)) hread⟩

theorem list_isSome (h : ∀ ms x, Clean (.object ms) → P ms x → (f ms).isSome = true)
    (hclean : Clean (.object ms)) {records : List α} (hlist : Describes P ms name records) :
    ∃ elements read, required Getter.array ms name = some elements ∧
      elements.mapM (ofObject f) = some read := by
  obtain ⟨elements, hfound, hall⟩ := hlist
  have hsome := mapM_isSome h (clean_elements (clean_lookup hclean hfound)) hall
  obtain ⟨read, hread⟩ := Option.isSome_iff_exists.mp hsome
  refine ⟨elements, read, ?_, hread⟩
  rw [required, hfound]
  rfl

end Lists

theorem coin_some (h : Clean (.object ms)) {coin : CCoinConfig}
    (hread : coinMembers Getter.string ms = some coin) : CoinIs ms coin := by
  simp only [coinMembers, clean_required h, clean_optional h] at hread
  obtain ⟨_, hname, hread⟩ := Option.bind_eq_some_iff.mp hread
  obtain ⟨_, hgetWorkArray, hread⟩ := Option.bind_eq_some_iff.mp hread
  obtain ⟨_, hrpcArray, hread⟩ := Option.bind_eq_some_iff.mp hread
  obtain ⟨_, hgetWorkNodes, hread⟩ := Option.bind_eq_some_iff.mp hread
  obtain ⟨_, hrpcNodes, hread⟩ := Option.bind_eq_some_iff.mp hread
  obtain ⟨_, hfeeArray, hread⟩ := Option.bind_eq_some_iff.mp hread
  obtain ⟨_, hfees, hread⟩ := Option.bind_eq_some_iff.mp hread
  obtain ⟨_, hrequiredConfirmations, hread⟩ := Option.bind_eq_some_iff.mp hread
  obtain ⟨_, hdefaultPayoutThreshold, hread⟩ := Option.bind_eq_some_iff.mp hread
  obtain ⟨_, hminimalAllowedPayout, hread⟩ := Option.bind_eq_some_iff.mp hread
  obtain ⟨_, hkeepRoundTime, hread⟩ := Option.bind_eq_some_iff.mp hread
  obtain ⟨_, hkeepStatsTime, hread⟩ := Option.bind_eq_some_iff.mp hread
  obtain ⟨_, hconfirmationsCheckInterval, hread⟩ := Option.bind_eq_some_iff.mp hread
  obtain ⟨_, hpayoutInterval, hread⟩ := Option.bind_eq_some_iff.mp hread
  obtain ⟨_, hbalanceCheckInterval, hread⟩ := Option.bind_eq_some_iff.mp hread
  obtain ⟨_, hstatisticCheckInterval, hread⟩ := Option.bind_eq_some_iff.mp hread
  obtain ⟨_, hshareTarget, hread⟩ := Option.bind_eq_some_iff.mp hread
  obtain ⟨_, hstratumWorkLifeTime, hread⟩ := Option.bind_eq_some_iff.mp hread
  obtain ⟨_, haddressArray, hread⟩ := Option.bind_eq_some_iff.mp hread
  obtain ⟨_, hminingAddresses, hread⟩ := Option.bind_eq_some_iff.mp hread
  obtain ⟨_, hcoinbaseMsg, hread⟩ := Option.bind_eq_some_iff.mp hread
  obtain ⟨_, hprofitSwitchCoeff, hread⟩ := Option.bind_eq_some_iff.mp hread
  obtain ⟨_, hpoolZAddr, hread⟩ := Option.bind_eq_some_iff.mp hread
  obtain ⟨_, hpoolTAddr, hread⟩ := Option.bind_eq_some_iff.mp hread
  cases hread
  exact {
    name := hname
    getWorkNodes := list_some (fun _ _ h => node_some h) h hgetWorkArray hgetWorkNodes
    rpcNodes := list_some (fun _ _ h => node_some h) h hrpcArray hrpcNodes
    fees := list_some (fun _ _ h => fee_some h) h hfeeArray hfees
    requiredConfirmations := hrequiredConfirmations
    defaultPayoutThreshold := hdefaultPayoutThreshold
    minimalAllowedPayout := hminimalAllowedPayout
    keepRoundTime := hkeepRoundTime
    keepStatsTime := hkeepStatsTime
    confirmationsCheckInterval := hconfirmationsCheckInterval
    payoutInterval := hpayoutInterval
    balanceCheckInterval := hbalanceCheckInterval
    statisticCheckInterval := hstatisticCheckInterval
    shareTarget := hshareTarget
    stratumWorkLifeTime := hstratumWorkLifeTime
    miningAddresses :=
      list_some (fun _ _ h => miningAddress_some h) h haddressArray hminingAddresses
    coinbaseMsg := hcoinbaseMsg
    profitSwitchCoeff := hprofitSwitchCoeff
    poolZAddr := hpoolZAddr
    poolTAddr := hpoolTAddr }

theorem coin_isSome (h : Clean (.object ms)) {coin : CCoinConfig} (hcoin : CoinIs ms coin) :
    (coinMembers Getter.string ms).isSome = true := by
  obtain ⟨getWorkArray, getWorkNodes, hgetWorkArray, hgetWorkNodes⟩ :=
    list_isSome (fun _ _ h => node_isSome h) h hcoin.getWorkNodes
  obtain ⟨rpcArray, rpcNodes, hrpcArray, hrpcNodes⟩ :=
    list_isSome (fun _ _ h => node_isSome h) h hcoin.rpcNodes
  obtain ⟨feeArray, fees, hfeeArray, hfees⟩ :=
    list_isSome (fun _ _ h => fee_isSome h) h hcoin.fees
  obtain ⟨addressArray, addresses, haddressArray, haddresses⟩ :=
    list_isSome (fun _ _ h => miningAddress_isSome h) h hcoin.miningAddresses
  simp [coinMembers, clean_required h, clean_optional h, hgetWorkArray, hgetWorkNodes, hrpcArray,
    hrpcNodes, hfeeArray, hfees, haddressArray, haddresses, hcoin.name,
    hcoin.requiredConfirmations, hcoin.defaultPayoutThreshold, hcoin.minimalAllowedPayout,
    hcoin.keepRoundTime, hcoin.keepStatsTime, hcoin.confirmationsCheckInterval,
    hcoin.payoutInterval, hcoin.balanceCheckInterval, hcoin.statisticCheckInterval,
    hcoin.shareTarget, hcoin.stratumWorkLifeTime, hcoin.coinbaseMsg, hcoin.profitSwitchCoeff,
    hcoin.poolZAddr, hcoin.poolTAddr]

theorem frontend_some (h : Clean (.object ms)) {config : CPoolFrontendConfig}
    (hread : frontendMembers Getter.string ms = some config) : FrontendIs ms config := by
  simp only [frontendMembers, clean_required h, clean_optional h] at hread
  obtain ⟨_, hisMaster, hread⟩ := Option.bind_eq_some_iff.mp hread
  obtain ⟨_, hhttpPort, hread⟩ := Option.bind_eq_some_iff.mp hread
  obtain ⟨_, hworkerThreadsNum, hread⟩ := Option.bind_eq_some_iff.mp hread
  obtain ⟨_, hhttpThreadsNum, hread⟩ := Option.bind_eq_some_iff.mp hread
  obtain ⟨_, hadminPasswordHash, hread⟩ := Option.bind_eq_some_iff.mp hread
  obtain ⟨_, hobserverPasswordHash, hread⟩ := Option.bind_eq_some_iff.mp hread
  obtain ⟨_, hdbPath, hread⟩ := Option.bind_eq_some_iff.mp hread
  obtain ⟨_, hpoolName, hread⟩ := Option.bind_eq_some_iff.mp hread
  obtain ⟨_, hpoolHostProtocol, hread⟩ := Option.bind_eq_some_iff.mp hread
  obtain ⟨_, hpoolHostAddress, hread⟩ := Option.bind_eq_some_iff.mp hread
  obtain ⟨_, hpoolActivateLinkPrefix, hread⟩ := Option.bind_eq_some_iff.mp hread
  obtain ⟨_, hpoolChangePasswordLinkPrefix, hread⟩ := Option.bind_eq_some_iff.mp hread
  obtain ⟨_, hpoolActivate2faLinkPrefix, hread⟩ := Option.bind_eq_some_iff.mp hread
  obtain ⟨_, hpoolDeactivate2faLinkPrefix, hread⟩ := Option.bind_eq_some_iff.mp hread
  obtain ⟨_, hsmtpEnabled, hread⟩ := Option.bind_eq_some_iff.mp hread
  obtain ⟨_, hsmtpServer, hread⟩ := Option.bind_eq_some_iff.mp hread
  obtain ⟨_, hsmtpLogin, hread⟩ := Option.bind_eq_some_iff.mp hread
  obtain ⟨_, hsmtpPassword, hread⟩ := Option.bind_eq_some_iff.mp hread
  obtain ⟨_, hsmtpSenderAddress, hread⟩ := Option.bind_eq_some_iff.mp hread
  obtain ⟨_, hsmtpUseSmtps, hread⟩ := Option.bind_eq_some_iff.mp hread
  obtain ⟨_, hsmtpUseStartTls, hread⟩ := Option.bind_eq_some_iff.mp hread
  cases hread
  exact ⟨hisMaster, hhttpPort, hworkerThreadsNum, hhttpThreadsNum, hadminPasswordHash,
    hobserverPasswordHash, hdbPath, hpoolName, hpoolHostProtocol, hpoolHostAddress,
    hpoolActivateLinkPrefix, hpoolChangePasswordLinkPrefix, hpoolActivate2faLinkPrefix,
    hpoolDeactivate2faLinkPrefix, hsmtpEnabled, hsmtpServer, hsmtpLogin, hsmtpPassword,
    hsmtpSenderAddress, hsmtpUseSmtps, hsmtpUseStartTls⟩

theorem frontend_isSome (h : Clean (.object ms)) {config : CPoolFrontendConfig}
    (hconfig : FrontendIs ms config) : (frontendMembers Getter.string ms).isSome = true := by
  simp [frontendMembers, clean_required h, clean_optional h, hconfig.isMaster, hconfig.httpPort,
    hconfig.workerThreadsNum, hconfig.httpThreadsNum, hconfig.adminPasswordHash,
    hconfig.observerPasswordHash, hconfig.dbPath, hconfig.poolName, hconfig.poolHostProtocol,
    hconfig.poolHostAddress, hconfig.poolActivateLinkPrefix, hconfig.poolChangePasswordLinkPrefix,
    hconfig.poolActivate2faLinkPrefix, hconfig.poolDeactivate2faLinkPrefix, hconfig.smtpEnabled,
    hconfig.smtpServer, hconfig.smtpLogin, hconfig.smtpPassword, hconfig.smtpSenderAddress,
    hconfig.smtpUseSmtps, hconfig.smtpUseStartTls]

theorem config_some (h : Clean (.object ms)) {config : CPoolFrontendConfig}
    (hread : configMembers Getter.string ms = some config) : ConfigIs ms config := by
  simp only [configMembers] at hread
  obtain ⟨_, hloaded, hread⟩ := Option.bind_eq_some_iff.mp hread
  obtain ⟨_, hcoinArray, hread⟩ := Option.bind_eq_some_iff.mp hread
  obtain ⟨_, hcoins, hread⟩ := Option.bind_eq_some_iff.mp hread
  obtain ⟨_, hinstanceArray, hread⟩ := Option.bind_eq_some_iff.mp hread
  obtain ⟨_, hinstances, hread⟩ := Option.bind_eq_some_iff.mp hread
  cases hread
  obtain ⟨v, hv, hobject⟩ := Option.bind_eq_some_iff.mp hloaded
  cases v with
  | object object =>
    have hfrontend := frontend_some (clean_lookup h hv) hobject
    exact {
      frontend := ⟨object, hv, { hfrontend with }⟩
      coins := list_some (fun _ _ h => coin_some h) h hcoinArray hcoins
      instances := list_some (fun _ _ h => instance_some h) h hinstanceArray hinstances }
  | _ => cases hobject

theorem config_isSome (h : Clean (.object ms)) {config : CPoolFrontendConfig}
    (hconfig : ConfigIs ms config) : (configMembers Getter.string ms).isSome = true := by
  obtain ⟨object, hobject, hfrontend⟩ := hconfig.frontend
  obtain ⟨loaded, hloaded⟩ :=
    Option.isSome_iff_exists.mp (frontend_isSome (clean_lookup h hobject) hfrontend)
  obtain ⟨coinArray, coins, hcoinArray, hcoins⟩ :=
    list_isSome (fun _ _ h => coin_isSome h) h hconfig.coins
  obtain ⟨instanceArray, instances, hinstanceArray, hinstances⟩ :=
    list_isSome (fun _ _ h => instance_isSome h) h hconfig.instances
  have hread : ofObject (frontendMembers Getter.string) (.object object) = some loaded := hloaded
  simp [configMembers, hobject, hread, hcoinArray, hcoins, hinstanceArray, hinstances]

end Clean

/-- The elements of a member that is an array are objects. -/
def ObjectsIn (ms : Members) (name : String) : Prop :=
  ∀ elements, ms.lookup name = some (.array elements) →
    ∀ element ∈ elements, element.isObject = true

/-- The lists of objects in a document. -/
structure ElementsAreObjects (ms : Members) : Prop where
  coins : ObjectsIn ms "coins"
  instances : ObjectsIn ms "instances"
  lists : ∀ coins, ms.lookup "coins" = some (.array coins) →
    ∀ coin, .object coin ∈ coins →
      ObjectsIn coin "getWorkNodes" ∧ ObjectsIn coin "RPCNodes" ∧ ObjectsIn coin "fees" ∧
        ObjectsIn coin "miningAddresses"

section Objects

variable {α : Type} {f : Members → Option α} {ms : Members} {name : String}

/-- Nothing is read of an element that is no object. -/
theorem each_safe {β : Type} {safe : Value → Prop} {f : Value → Option β} {elements : List Value}
    (h : ∀ element ∈ elements, safe element) : EachSafe safe f elements := by
  induction elements with
  | nil => exact trivial
  | cons element rest ih =>
    exact ⟨h element List.mem_cons_self, fun _ => ih fun v hv => h v (List.mem_cons_of_mem _ hv)⟩

theorem objects_in (h : ObjectsIn ms name) {elements : List Value}
    (helements : required Getter.array ms name = some elements) : Objects f elements :=
  each_safe (h elements ((required_array_iff _ _ _).mp helements))

theorem coin_safe (hwork : ObjectsIn ms "getWorkNodes") (hrpc : ObjectsIn ms "RPCNodes")
    (hfees : ObjectsIn ms "fees") (haddresses : ObjectsIn ms "miningAddresses") : CoinSafe ms := by
  intro _ _ getWorkNodes hgetWorkNodes rpcNodes hrpcNodes
  refine ⟨objects_in hwork hgetWorkNodes, fun _ _ => ⟨objects_in hrpc hrpcNodes, fun _ _ => ?_⟩⟩
  intro fees hfeeArray
  refine ⟨objects_in hfees hfeeArray, fun _ _ => ?_⟩
  iterate 11 intro _ _
  intro miningAddresses hminingAddresses
  exact objects_in haddresses hminingAddresses

theorem document_safe (h : ElementsAreObjects ms) : DocumentSafe (.object ms) := by
  refine ⟨ms, rfl, fun object _ => ⟨fun coins hcoins => ?_, fun _ _ coins hcoins => ?_⟩⟩
  · exact h.coins coins ((required_array_iff _ _ _).mp hcoins)
  · refine ⟨each_safe fun coin hcoin members hmembers => ?_, fun _ _ instances hinstances => ?_⟩
    · rw [hmembers] at hcoin
      obtain ⟨hwork, hrpc, hfees, haddresses⟩ :=
        h.lists coins ((required_array_iff _ _ _).mp hcoins) members hcoin
      exact coin_safe hwork hrpc hfees haddresses
    · exact objects_in h.instances hinstances

end Objects

/-- Accepted are the documents that describe a configuration, and it is the one that is loaded. -/
theorem load_accepts (self : CPoolFrontendConfig) {ms : Members} (hclean : Clean (.object ms))
    (hobjects : ElementsAreObjects ms) (description : String) :
    ∃ accepted config description',
      (declared self).load (.object ms) description = some (accepted, config, description') ∧
      (accepted = true ↔ ∃ described, ConfigIs ms described) ∧
      (accepted = true → ConfigIs ms config) := by
  obtain ⟨accepted, config, description', hrun, hend⟩ :=
    load_ends self (document_safe hobjects) description
  refine ⟨accepted, config, description', hrun, ?_⟩
  cases hend with
  | inl hend =>
    obtain ⟨haccepted, hread⟩ := hend
    have hconfig := config_some hclean hread
    exact ⟨iff_of_true haccepted ⟨config, hconfig⟩, fun _ => hconfig⟩
  | inr hend =>
    obtain ⟨haccepted, hread⟩ := hend
    have hread : configMembers Getter.string ms = none := hread
    have hnone : ¬ ∃ described, ConfigIs ms described := by
      rintro ⟨described, hdescribed⟩
      have hsome := config_isSome hclean hdescribed
      rw [hread] at hsome
      cases hsome
    refine ⟨iff_of_false (by simp [haccepted]) hnone, fun htrue => ?_⟩
    rw [haccepted] at htrue
    cases htrue

/-- A pool with one coin, one node and one instance. -/
def sampleFrontend : Members := [
  ("isMaster", .bool true), ("httpPort", .int 18880), ("dbPath", .string "~/pool"),
  ("poolName", .string "pool"), ("poolHostProtocol", .string "https"),
  ("poolHostAddress", .string "localhost"), ("poolActivateLinkPrefix", .string "/a"),
  ("poolChangePasswordLinkPrefix", .string "/c"), ("poolActivate2faLinkPrefix", .string "/t"),
  ("poolDeactivate2faLinkPrefix", .string "/d"), ("smtpEnabled", .bool false),
  ("smtpServer", .string ""), ("smtpLogin", .string ""), ("smtpPassword", .string ""),
  ("smtpSenderAddress", .string "")]

def sampleNode : Members := [
  ("type", .string "bitcoinrpc"), ("address", .string "127.0.0.1:8332")]

def sampleCoin : Members := [
  ("name", .string "BTC"), ("getWorkNodes", .array [.object sampleNode]), ("RPCNodes", .array []),
  ("fees", .array []), ("requiredConfirmations", .int 6),
  ("defaultPayoutThreshold", .string "0.1"), ("minimalAllowedPayout", .string "0.01"),
  ("keepRoundTime", .int 3), ("keepStatsTime", .int 1440), ("confirmationsCheckInterval", .int 7),
  ("payoutInterval", .int 60), ("balanceCheckInterval", .int 3),
  ("statisticCheckInterval", .int 3), ("shareTarget", .int 10), ("miningAddresses", .array [])]

def sampleInstance : Members := [
  ("name", .string "main"), ("type", .string "BTC"), ("protocol", .string "stratum"),
  ("backends", .array [.string "BTC"])]

def sampleDocument : Members := [
  ("poolfrontend", .object sampleFrontend), ("coins", .array [.object sampleCoin]),
  ("instances", .array [.object sampleInstance])]

/-- Its strings have no NUL. -/
theorem sampleDocument_clean : Clean (.object sampleDocument) := by
  have hstring : ∀ s, NulFree s → Clean (.string s) := Clean.string
  have hfrontend : Clean (.object sampleFrontend) := by
    apply clean_members
    simp only [sampleFrontend, List.forall_mem_cons]
    refine ⟨.bool _, .int _, ?_⟩
    iterate 8 refine ⟨hstring _ (by decide), ?_⟩
    refine ⟨.bool _, ?_⟩
    iterate 4 refine ⟨hstring _ (by decide), ?_⟩
    exact List.forall_mem_nil _
  have hnode : Clean (.object sampleNode) := by
    apply clean_members
    simp only [sampleNode, List.forall_mem_cons]
    exact ⟨hstring _ (by decide), hstring _ (by decide), List.forall_mem_nil _⟩
  have hcoin : Clean (.object sampleCoin) := by
    apply clean_members
    simp only [sampleCoin, List.forall_mem_cons]
    refine ⟨hstring _ (by decide), .array _ (by simpa using hnode), .array _ (by simp),
      .array _ (by simp), .int _, hstring _ (by decide), hstring _ (by decide), ?_⟩
    iterate 7 refine ⟨.int _, ?_⟩
    exact ⟨.array _ (by simp), List.forall_mem_nil _⟩
  have hinstance : Clean (.object sampleInstance) := by
    apply clean_members
    simp only [sampleInstance, List.forall_mem_cons]
    refine ⟨hstring _ (by decide), hstring _ (by decide), hstring _ (by decide), ?_⟩
    exact ⟨.array _ (by simpa using hstring _ (by decide)), List.forall_mem_nil _⟩
  apply clean_members
  simp only [sampleDocument, List.forall_mem_cons]
  exact ⟨hfrontend, .array _ (by simpa using hcoin), .array _ (by simpa using hinstance),
    List.forall_mem_nil _⟩

theorem sampleDocument_objects : ElementsAreObjects sampleDocument where
  coins elements h := by
    cases h
    simp [Value.isObject]
  instances elements h := by
    cases h
    simp [Value.isObject]
  lists coins h coin hcoin := by
    cases h
    have hmembers : coin = sampleCoin := by simpa using hcoin
    rw [hmembers]
    refine ⟨?_, ?_, ?_, ?_⟩ <;>
    · intro elements h
      cases h
      simp [Value.isObject]

theorem load_accepts_sample :
    Clean (.object sampleDocument) ∧ ElementsAreObjects sampleDocument ∧
    ∃ accepted config description',
      (declared {}).load (.object sampleDocument) "" = some (accepted, config, description') ∧
      (accepted = true ↔ ∃ described, ConfigIs sampleDocument described) ∧
      (accepted = true → ConfigIs sampleDocument config) :=
  ⟨sampleDocument_clean, sampleDocument_objects,
    load_accepts {} sampleDocument_clean sampleDocument_objects ""⟩

example : (configMembers Getter.string sampleDocument).map (fun config => config.coins.length) =
    some 1 := by decide

end ConfigAcceptance
