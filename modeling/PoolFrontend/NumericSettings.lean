import PoolFrontend.ConfigLoad
import PoolFrontend.MachineInt
import PoolFrontend.MainSetup

/-!
# Numeric settings

The settings of a coin are multiplied in 32 bits before they are widened, and the
port is narrowed to 16. They reach the pool as configured exactly when nothing wraps.
-/
namespace NumericSettings

open Json Config ConfigLoad MachineInt MainSetup

/-- The number a document gives to an unsigned member. -/
def configured (value : Value) (name : String) : Option Nat :=
  ((value.member name).bind Value.getUint).map UInt32.toNat

/-- A setting of a coin: its member, where it is stored, and in which unit. -/
structure Setting where
  name : String
  stored : PoolBackendConfig → UInt64
  unit : Nat

/-- Days and minutes to seconds, and minutes to microseconds. -/
def settings : List Setting := [
  ⟨"keepRoundTime", PoolBackendConfig.keepRoundTime, 86400⟩,
  ⟨"keepStatsTime", PoolBackendConfig.keepStatsTime, 60⟩,
  ⟨"confirmationsCheckInterval", PoolBackendConfig.confirmationsCheckInterval, 60 * 1000000⟩,
  ⟨"payoutInterval", PoolBackendConfig.payoutInterval, 60 * 1000000⟩,
  ⟨"balanceCheckInterval", PoolBackendConfig.balanceCheckInterval, 60 * 1000000⟩]

/-- Every setting of the coin is stored as the exact product. -/
def CoinExact (coin : Value) (backend : PoolBackend) : Prop :=
  ∀ s ∈ settings, ∃ n, configured coin s.name = some n ∧
    (s.stored backend.config).toNat = n * s.unit

/-- No product of the coin's settings reaches 32 bits. -/
def CoinFits (coin : Value) : Prop :=
  ∀ s ∈ settings, ∀ n, configured coin s.name = some n → n * s.unit < 2 ^ 32

/-- The backends, in the order of the coins, and the port have what the document says. -/
def SettingsExact (env : Environment) (self : CPoolFrontendConfig) (document : Value)
    (context : PoolContext) : Prop :=
  ∃ config error object coins core, self.load document "" = some (true, config, error) ∧
    document.member "poolfrontend" = some object ∧
    document.member "coins" = some (.array coins) ∧
    initCore env config = pure core ∧ context.backends = sortByName env core.backends ∧
    List.Forall₂ CoinExact coins core.backends ∧
    configured object "httpPort" = some context.httpServer.port.toNat

/-- No product and no port of the document is too large. -/
def SettingsFit (document : Value) : Prop :=
  (∀ object port, document.member "poolfrontend" = some object →
    configured object "httpPort" = some port → port < 2 ^ 16) ∧
  ∀ coins, document.member "coins" = some (.array coins) → ∀ coin ∈ coins, CoinFits coin

/-- The products as `main` computes them. -/
structure Stored (coinConfig : CCoinConfig) (config : PoolBackendConfig) : Prop where
  keepRoundTime : config.keepRoundTime = (coinConfig.keepRoundTime * 24 * 3600).toUInt64
  keepStatsTime : config.keepStatsTime = (coinConfig.keepStatsTime * 60).toUInt64
  confirmationsCheckInterval : config.confirmationsCheckInterval =
    (coinConfig.confirmationsCheckInterval * 60 * 1000000).toUInt64
  payoutInterval : config.payoutInterval = (coinConfig.payoutInterval * 60 * 1000000).toUInt64
  balanceCheckInterval :
    config.balanceCheckInterval = (coinConfig.balanceCheckInterval * 60 * 1000000).toUInt64

section Backends

variable {env : Environment} {isMaster : Bool} {databasePath poolName : String}
  {totalThreadsNum : UInt32}

theorem backendParameters_stored {coinConfig : CCoinConfig} {coinInfo : Poolcore.CoinInfo}
    {config : PoolBackendConfig}
    (h : backendParameters env isMaster databasePath poolName coinConfig coinInfo = pure config) :
    Stored coinConfig config := by
  unfold backendParameters at h
  split at h
  · split at h
    · split at h
      · exact (throw_completes h).elim
      · split at h
        · exact (throw_completes h).elim
        · cases h
          exact ⟨rfl, rfl, rfl, rfl, rfl⟩
    · exact (throw_completes h).elim
  · exact (throw_completes h).elim

theorem initBackend_stored {coinConfig : CCoinConfig} {coinInfo : Poolcore.CoinInfo}
    {servers servers' : AlgoServers} {backend : PoolBackend}
    (h : initBackend env isMaster databasePath poolName totalThreadsNum coinConfig coinInfo
      servers = pure (backend, servers')) : Stored coinConfig backend.config := by
  obtain ⟨config, hconfig, h⟩ := bind_completes h
  obtain ⟨getWorkClients, _, h⟩ := bind_completes h
  obtain ⟨rpcClients, _, h⟩ := bind_completes h
  obtain ⟨⟨server, _⟩, _, h⟩ := bind_completes h
  cases h
  exact backendParameters_stored hconfig

/-- The loop makes one backend for each coin, in order. -/
theorem initBackends_stored {coins : List CCoinConfig} {coinList : List Poolcore.CoinInfo}
    {servers servers' : AlgoServers} {backends : List PoolBackend}
    (hlength : coins.length = coinList.length)
    (h : initBackends env isMaster databasePath poolName totalThreadsNum (coins.zip coinList)
      servers = pure (backends, servers')) :
    List.Forall₂ (fun coin backend => Stored coin backend.config) coins backends := by
  induction coins generalizing coinList servers backends with
  | nil =>
    cases h
    exact .nil
  | cons coin coins ih =>
    cases coinList with
    | nil => cases hlength
    | cons coinInfo coinList =>
      obtain ⟨⟨backend, middle⟩, hbackend, h⟩ := bind_completes h
      obtain ⟨⟨rest, last⟩, hrest, h⟩ := bind_completes h
      cases h
      exact .cons (initBackend_stored hbackend) (ih (Nat.succ.inj hlength) hrest)

end Backends

theorem initCore_stored {env : Environment} {config : CPoolFrontendConfig} {core : Core}
    (h : initCore env config = pure core) :
    List.Forall₂ (fun coin backend => Stored coin backend.config) config.coins core.backends := by
  obtain ⟨coinList, hcoins, h⟩ := bind_completes h
  obtain ⟨⟨backends, servers⟩, hbackends, h⟩ := bind_completes h
  cases h
  exact initBackends_stored (mapM_completes hcoins).length_eq hbackends

theorem setUp_stores {env : Environment} {config : CPoolFrontendConfig} {context : PoolContext}
    (h : setUp env config = pure context) :
    ∃ core, initCore env config = pure core ∧ context.backends = sortByName env core.backends ∧
      context.httpServer.port = config.httpPort.toUInt16 := by
  obtain ⟨smtpAddress, _, h⟩ := bind_completes h
  obtain ⟨core, hcore, h⟩ := bind_completes h
  obtain ⟨instances, _, h⟩ := bind_completes h
  cases h
  exact ⟨core, hcore, rfl, rfl⟩

theorem main_completes {env : Environment} {self : CPoolFrontendConfig} {document : Value}
    {context : PoolContext} (h : main env self document = pure context) :
    ∃ config error, self.load document "" = some (true, config, error) ∧
      setUp env config = pure context := by
  obtain ⟨⟨loaded, config, error⟩, hload, h⟩ := bind_completes h
  cases loaded with
  | true => exact ⟨config, error, lift_completes hload, h⟩
  | false => exact (throw_completes h).elim

theorem configured_field {value : Value} {name : String} {n : UInt32}
    (h : Field Getter.uint value name n) : configured value name = some n.toNat := by
  obtain ⟨field, hfield, hget⟩ := h
  have hget' : field.getUint = some n := hget
  simp [configured, hfield, hget']

theorem coin_exact_iff {coin : Value} {coinConfig : CCoinConfig} {backend : PoolBackend}
    (hnumbers : CoinNumbers coin coinConfig) (hstored : Stored coinConfig backend.config) :
    CoinExact coin backend ↔ CoinFits coin := by
  have hround := configured_field hnumbers.keepRoundTime
  have hstats := configured_field hnumbers.keepStatsTime
  have hconfirmations := configured_field hnumbers.confirmationsCheckInterval
  have hpayout := configured_field hnumbers.payoutInterval
  have hbalance := configured_field hnumbers.balanceCheckInterval
  simp only [CoinExact, CoinFits, settings, List.forall_mem_cons, List.not_mem_nil,
    IsEmpty.forall_iff, implies_true, and_true, hround, hstats, hconfirmations, hpayout, hbalance,
    Option.some.injEq, exists_eq_left', forall_eq', hstored.keepRoundTime, hstored.keepStatsTime,
    hstored.confirmationsCheckInterval, hstored.payoutInterval, hstored.balanceCheckInterval]
  exact and_congr (widened_mul_mul_iff _ 24 3600) (and_congr (widened_mul_iff _ 60)
    (and_congr (widened_mul_mul_iff _ 60 1000000) (and_congr (widened_mul_mul_iff _ 60 1000000)
      (widened_mul_mul_iff _ 60 1000000))))

theorem coins_exact_iff {coins : List Value} {configs : List CCoinConfig}
    {backends : List PoolBackend} (hnumbers : List.Forall₂ CoinNumbers coins configs)
    (hstored : List.Forall₂ (fun coin backend => Stored coin backend.config) configs backends) :
    List.Forall₂ CoinExact coins backends ↔ ∀ coin ∈ coins, CoinFits coin := by
  induction hnumbers generalizing backends with
  | nil =>
    cases hstored
    simp
  | cons hcoin _ ih =>
    cases hstored with
    | cons hbackend hrest =>
      rw [List.forall₂_cons, List.forall_mem_cons, coin_exact_iff hcoin hbackend, ih hrest]

/-- A document the pool is set up from has its settings kept exactly when they fit. -/
theorem settings_exact_iff {env : Environment} {self : CPoolFrontendConfig} {document : Value}
    {context : PoolContext} (h : main env self document = pure context) :
    SettingsExact env self document context ↔ SettingsFit document := by
  obtain ⟨config, error, hload, hsetup⟩ := main_completes h
  obtain ⟨object, coins, hobject, hport, hcoins, hnumbers⟩ := load_numbers hload
  obtain ⟨core, hcore, hbackends, hstoredPort⟩ := setUp_stores hsetup
  have hcoinsIff := coins_exact_iff hnumbers (initCore_stored hcore)
  have hconfigured := configured_field hport
  constructor
  · rintro ⟨config', error', object', coins', core', hload', hobject', hcoins', hcore', -,
      hexact, hportExact⟩
    cases hload.symm.trans hload'
    cases hobject.symm.trans hobject'
    cases hcoins.symm.trans hcoins'
    cases hcore.symm.trans hcore'
    refine ⟨fun object' port hobject' hport' => ?_, fun coins' hcoins' => ?_⟩
    · cases hobject.symm.trans hobject'
      cases hconfigured.symm.trans hport'
      rw [hstoredPort, hconfigured] at hportExact
      exact (narrowed_iff _).mp (Option.some.inj hportExact).symm
    · cases hcoins.symm.trans hcoins'
      exact hcoinsIff.mp hexact
  · rintro ⟨hportFits, hcoinsFit⟩
    have hportExact := (narrowed_iff _).mpr (hportFits object _ hobject hconfigured)
    refine ⟨config, error, object, coins, core, hload, hobject, hcoins, hcore, hbackends,
      hcoinsIff.mpr (hcoinsFit coins hcoins), ?_⟩
    rw [hconfigured, hstoredPort, hportExact]

def sampleCoin (confirmationsCheckInterval : Int) : Value := .object [
  ("name", .string "BTC"),
  ("getWorkNodes", .array []),
  ("RPCNodes", .array []),
  ("fees", .array []),
  ("requiredConfirmations", .int 10),
  ("defaultPayoutThreshold", .string "0.001"),
  ("minimalAllowedPayout", .string "0.001"),
  ("keepRoundTime", .int 3),
  ("keepStatsTime", .int 2),
  ("confirmationsCheckInterval", .int confirmationsCheckInterval),
  ("payoutInterval", .int 10),
  ("balanceCheckInterval", .int 3),
  ("statisticCheckInterval", .int 1),
  ("shareTarget", .int 2048),
  ("miningAddresses", .array [])]

/-- A document with one coin and no instance. -/
def sampleDocument (confirmationsCheckInterval : Int) : Value := .object [
  ("poolfrontend", .object [
    ("isMaster", .bool true),
    ("httpPort", .int 18880),
    ("dbPath", .string "/var/pool"),
    ("poolName", .string "pool"),
    ("poolHostProtocol", .string "http"),
    ("poolHostAddress", .string "localhost"),
    ("poolActivateLinkPrefix", .string ""),
    ("poolChangePasswordLinkPrefix", .string ""),
    ("poolActivate2faLinkPrefix", .string ""),
    ("poolDeactivate2faLinkPrefix", .string ""),
    ("smtpEnabled", .bool false),
    ("smtpServer", .string ""),
    ("smtpLogin", .string ""),
    ("smtpPassword", .string ""),
    ("smtpSenderAddress", .string "")]),
  ("coins", .array [sampleCoin confirmationsCheckInterval]),
  ("instances", .array [])]

/-- A library that knows every coin and accepts every amount and address. -/
def sampleEnvironment : Environment where
  hardwareConcurrency := 8
  userHomeDir := "/root"
  joinPath l r := l ++ "/" ++ r
  gethostbyname _ := none
  coinLibrary name := ⟨name, name, "sha256", 100000000, 1, 0, 0, 1⟩
  helpers := { Server.emptyServer.helpers with parseMoneyValue := fun _ _ => some 0 }
  sort := SortedSearch.insertionNameSort
  poolInstanceFabric _ _ _ _ _ _ := true

theorem hour_and_twelve_minutes_wrap :
    ¬ ∀ (env : Environment) (self : CPoolFrontendConfig) (document : Value)
      (context : PoolContext), main env self document = pure context →
      SettingsExact env self document context := by
  intro hclaim
  obtain ⟨context, hmain⟩ : ∃ context,
      main sampleEnvironment {} (sampleDocument 72) = pure context := ⟨_, rfl⟩
  obtain ⟨config, _, _, coins, core, hload, -, hcoins, hcore, -, hexact, -⟩ :=
    hclaim _ _ _ _ hmain
  obtain ⟨_, coins', -, -, hcoins', hnumbers⟩ := load_numbers hload
  cases hcoins.symm.trans hcoins'
  have hfits := (coins_exact_iff hnumbers (initCore_stored hcore)).mp hexact
  cases hcoins
  have hinterval := hfits (sampleCoin 72) List.mem_cons_self
    ⟨"confirmationsCheckInterval", PoolBackendConfig.confirmationsCheckInterval, 60 * 1000000⟩
    (by simp [settings]) 72 rfl
  exact absurd hinterval (by decide)

theorem sample_settings_fit : SettingsFit (sampleDocument 7) := by
  refine ⟨fun object port hobject hport => ?_, fun coins hcoins => ?_⟩
  · cases hobject
    cases hport
    decide
  · have hbound : ∀ (name : String) (n unit : Nat), configured (sampleCoin 7) name = some n →
        n * unit < 2 ^ 32 → ∀ m, configured (sampleCoin 7) name = some m → m * unit < 2 ^ 32 := by
      intro name n unit hn hfits m hm
      cases hn.symm.trans hm
      exact hfits
    cases hcoins
    simp only [CoinFits, settings, List.forall_mem_cons, List.not_mem_nil, IsEmpty.forall_iff,
      implies_true, and_true]
    exact ⟨hbound _ 3 _ rfl (by decide), hbound _ 2 _ rfl (by decide),
      hbound _ 7 _ rfl (by decide), hbound _ 10 _ rfl (by decide), hbound _ 3 _ rfl (by decide)⟩

theorem sample_settings_exact : ∃ context,
    SettingsExact sampleEnvironment {} (sampleDocument 7) context := by
  obtain ⟨context, hmain⟩ : ∃ context,
      main sampleEnvironment {} (sampleDocument 7) = pure context := ⟨_, rfl⟩
  exact ⟨context, (settings_exact_iff hmain).mpr sample_settings_fit⟩

end NumericSettings
