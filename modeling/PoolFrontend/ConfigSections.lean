import PoolFrontend.ConfigLoad
import PoolFrontend.ConfigOutcome

/-!
# How a configuration ends

The sections of a document from the elements up: for a coin, for the front end and for the
whole document, what the load yields and which values it must find to be objects.
-/
namespace ConfigSections

open PartialState Json Config ConfigOutcome

section Rules

variable {α β : Type}

/-- What is asked of a value, when there is one. -/
def Given (o : Option α) (P : α → Prop) : Prop := ∀ x, o = some x → P x

theorem loads_field {p : Load α} {q : α → Load β} {safe : α → Prop} {f : Option α}
    {g : α → Option β} (hp : Loads p True f) (hq : ∀ x, Loads (q x) (safe x) (g x)) :
    Loads (p >>= q) (Given f safe) (f >>= g) :=
  loads_congr (loads_bind hp hq) (by simp [Given]) rfl

theorem loads_last {p : Load α} {q : α → Load β} {safe : Prop} {f : Option α}
    {g : α → Option β} (hp : Loads p safe f) (hq : ∀ x, Loads (q x) True (g x)) :
    Loads (p >>= q) safe (f >>= g) :=
  loads_congr (loads_bind hp hq) (by simp) rfl

/-- The outcome of a structural check, whatever was set before. -/
theorem requireArray_object (ms : Members) (localPath name : String) :
    requireArray (.object ms) localPath name =
      match ms.lookup name with
      | some (.array elements) => pure (some elements)
      | some _ => fail "array of objects" .typeMismatch localPath name none
      | none => fail "array of objects" .notExists localPath name none := by
  unfold requireArray
  rw [Value.hasMember_object, Value.member_object, lift_some_bind]
  cases hv : ms.lookup name with
  | none => rfl
  | some v => cases v <;> rfl

theorem requireArray_found {ms : Members} {localPath name : String} {elements : List Value}
    (h : required Getter.array ms name = some elements) :
    requireArray (.object ms) localPath name = pure (some elements) := by
  rw [requireArray_object, (required_array_iff ms name elements).mp h]

theorem requireArray_missing {ms : Members} {name : String}
    (h : required Getter.array ms name = none) (localPath : String) :
    ∃ error, error ≠ .ok ∧ requireArray (.object ms) localPath name =
      fail "array of objects" error localPath name none := by
  rw [requireArray_object]
  cases hv : ms.lookup name with
  | none => exact ⟨.notExists, by decide, rfl⟩
  | some v =>
    cases v with
    | array xs => simp [required, hv, Getter.array, Value.getArray] at h
    | _ => exact ⟨.typeMismatch, by decide, rfl⟩

/-- A check that fails leaves the section. -/
theorem fail_leaves {q : α → Load β} {x : α} {y : β} (hleave : q x = pure y)
    (error : EErrorType) (place name requiredType : String) :
    fail requiredType error place name x >>= q = fail requiredType error place name y := by
  rw [fail, bind_assoc]
  simp only [pure_bind, hleave]
  rfl

/-- A structural check and what follows it; without an array the section is left. -/
theorem loads_found {q : Option (List Value) → Load β} {x : β} {safe : List Value → Prop}
    {g : List Value → Option β} {ms : Members} {localPath name : String} (hnone : q none = pure x)
    (hq : ∀ elements, required Getter.array ms name = some elements →
      Loads (q (some elements)) (safe elements) (g elements)) :
    Loads (requireArray (.object ms) localPath name >>= q)
      (Given (required Getter.array ms name) safe) ((required Getter.array ms name) >>= g) := by
  cases hfound : required Getter.array ms name with
  | some elements =>
    rw [requireArray_found hfound, pure_bind]
    exact loads_congr (hq elements hfound) (by simp [Given]) rfl
  | none =>
    obtain ⟨error, herror, hrun⟩ := requireArray_missing hfound localPath
    rw [hrun, fail_leaves hnone]
    exact loads_congr (loads_error herror _ _ _ x) (by simp [Given]) rfl

end Rules

section Coins

variable (text : Getter String) (ms : Members)

/-- The coin of a section, its strings read by `text`. -/
def coinMembers : Option CCoinConfig := do
  let name ← required text ms "name"
  let getWorkNodes ← required Getter.array ms "getWorkNodes"
  let rpcNodes ← required Getter.array ms "RPCNodes"
  let getWorkNodes ← getWorkNodes.mapM (ofObject (nodeMembers text))
  let rpcNodes ← rpcNodes.mapM (ofObject (nodeMembers text))
  let fees ← required Getter.array ms "fees"
  let fees ← fees.mapM (ofObject (feeMembers text))
  let requiredConfirmations ← required Getter.uint ms "requiredConfirmations"
  let defaultPayoutThreshold ← required text ms "defaultPayoutThreshold"
  let minimalAllowedPayout ← required text ms "minimalAllowedPayout"
  let keepRoundTime ← required Getter.uint ms "keepRoundTime"
  let keepStatsTime ← required Getter.uint ms "keepStatsTime"
  let confirmationsCheckInterval ← required Getter.uint ms "confirmationsCheckInterval"
  let payoutInterval ← required Getter.uint ms "payoutInterval"
  let balanceCheckInterval ← required Getter.uint ms "balanceCheckInterval"
  let statisticCheckInterval ← required Getter.uint ms "statisticCheckInterval"
  let shareTarget ← required Getter.uint ms "shareTarget"
  let stratumWorkLifeTime ← Json.optional Getter.uint ms "stratumWorkLifeTime" 0
  let miningAddresses ← required Getter.array ms "miningAddresses"
  let miningAddresses ← miningAddresses.mapM (ofObject (miningAddressMembers text))
  let coinbaseMsg ← Json.optional text ms "coinbaseMsg" ""
  let profitSwitchCoeff ← Json.optional float ms "profitSwitchCoeff" (.finite 0)
  let poolZAddr ← Json.optional text ms "pool_zaddr" ""
  let poolTAddr ← Json.optional text ms "pool_taddr" ""
  return {
    name, getWorkNodes, rpcNodes, fees, requiredConfirmations, defaultPayoutThreshold
    minimalAllowedPayout, keepRoundTime, keepStatsTime, confirmationsCheckInterval, payoutInterval
    balanceCheckInterval, statisticCheckInterval, shareTarget, stratumWorkLifeTime, miningAddresses
    coinbaseMsg, profitSwitchCoeff, poolZAddr, poolTAddr }

/-- Elements that are objects, up to the first that is not accepted. -/
def Objects {α : Type} (f : Members → Option α) (elements : List Value) : Prop :=
  EachSafe (fun element => element.isObject = true) (ofObject f) elements

/-- The elements of a coin are objects as far as the load gets without an error. -/
def CoinSafe : Prop :=
  Given (required Getter.string ms "name") fun _ =>
  Given (required Getter.array ms "getWorkNodes") fun getWorkNodes =>
  Given (required Getter.array ms "RPCNodes") fun rpcNodes =>
  Objects (nodeMembers Getter.string) getWorkNodes ∧
  Given (getWorkNodes.mapM (ofObject (nodeMembers Getter.string))) fun _ =>
  Objects (nodeMembers Getter.string) rpcNodes ∧
  Given (rpcNodes.mapM (ofObject (nodeMembers Getter.string))) fun _ =>
  Given (required Getter.array ms "fees") fun fees =>
  Objects (feeMembers Getter.string) fees ∧
  Given (fees.mapM (ofObject (feeMembers Getter.string))) fun _ =>
  Given (required Getter.uint ms "requiredConfirmations") fun _ =>
  Given (required Getter.string ms "defaultPayoutThreshold") fun _ =>
  Given (required Getter.string ms "minimalAllowedPayout") fun _ =>
  Given (required Getter.uint ms "keepRoundTime") fun _ =>
  Given (required Getter.uint ms "keepStatsTime") fun _ =>
  Given (required Getter.uint ms "confirmationsCheckInterval") fun _ =>
  Given (required Getter.uint ms "payoutInterval") fun _ =>
  Given (required Getter.uint ms "balanceCheckInterval") fun _ =>
  Given (required Getter.uint ms "statisticCheckInterval") fun _ =>
  Given (required Getter.uint ms "shareTarget") fun _ =>
  Given (Json.optional Getter.uint ms "stratumWorkLifeTime" 0) fun _ =>
  Given (required Getter.array ms "miningAddresses") fun miningAddresses =>
  Objects (miningAddressMembers Getter.string) miningAddresses

/-- The check of the mining addresses has one message for absent and ill-typed. -/
def requireMember {β : Type} (name place requiredName requiredType : String) (x : β)
    (q : List Value → Load β) : Load β := do
  let isArray ← liftM ((Value.object ms).memberIs Value.isArray name)
  if (!isArray) = true then do
    setErrorDescription .typeMismatch place requiredName requiredType
    pure x
  else do
    let field ← liftM ((Value.object ms).member name)
    let elements ← liftM field.getArray
    q elements

theorem requireMember_eq {β : Type} (name place requiredName requiredType : String) (x : β)
    (q : List Value → Load β) :
    requireMember ms name place requiredName requiredType x q =
      (required Getter.array ms name).elim
        (fail requiredType .typeMismatch place requiredName x) q := by
  rw [requireMember, Value.memberIs_object, Value.member_object, lift_some_bind, required]
  cases hv : ms.lookup name with
  | none => rfl
  | some v => cases v <;> rfl

theorem loads_memberIs {β : Type} {q : List Value → Load β} {x : β} {safe : List Value → Prop}
    {g : List Value → Option β} (name place requiredName requiredType : String)
    (hq : ∀ elements, Loads (q elements) (safe elements) (g elements)) :
    Loads (requireMember ms name place requiredName requiredType x q)
      (Given (required Getter.array ms name) safe) ((required Getter.array ms name) >>= g) := by
  rw [requireMember_eq]
  cases required Getter.array ms name with
  | none => exact loads_congr (loads_typeMismatch _ _ _ _) (by simp [Given]) rfl
  | some elements => exact loads_congr (hq elements) (by simp [Given]) rfl

theorem loads_coin :
    Loads (CCoinConfig.load {} (.object ms)) (CoinSafe ms) (coinMembers Getter.string ms) := by
  unfold CCoinConfig.load CoinSafe coinMembers
  refine loads_field (loads_required _ _ _ _ _ _) fun name => ?_
  refine loads_found rfl fun getWorkNodes _ => ?_
  refine loads_found rfl fun rpcNodes _ => ?_
  refine loads_bind (loads_each fun _ _ => loads_nodeElement _ _) fun _ => ?_
  refine loads_bind (loads_each fun _ _ => loads_nodeElement _ _) fun _ => ?_
  refine loads_found rfl fun fees _ => ?_
  refine loads_bind (loads_each fun _ _ => loads_feeElement _ _) fun _ => ?_
  refine loads_field (loads_required _ _ _ _ _ _) fun requiredConfirmations => ?_
  refine loads_field (loads_required _ _ _ _ _ _) fun defaultPayoutThreshold => ?_
  refine loads_field (loads_required _ _ _ _ _ _) fun minimalAllowedPayout => ?_
  refine loads_field (loads_required _ _ _ _ _ _) fun keepRoundTime => ?_
  refine loads_field (loads_required _ _ _ _ _ _) fun keepStatsTime => ?_
  refine loads_field (loads_required _ _ _ _ _ _) fun confirmationsCheckInterval => ?_
  refine loads_field (loads_required _ _ _ _ _ _) fun payoutInterval => ?_
  refine loads_field (loads_required _ _ _ _ _ _) fun balanceCheckInterval => ?_
  refine loads_field (loads_required _ _ _ _ _ _) fun statisticCheckInterval => ?_
  refine loads_field (loads_required _ _ _ _ _ _) fun shareTarget => ?_
  refine loads_field (loads_optional _ _ _ _ _ _ _) fun stratumWorkLifeTime => ?_
  refine loads_memberIs ms "miningAddresses" _ _ _ fun miningAddresses => ?_
  refine loads_last (loads_each fun _ _ => loads_miningAddressElement _ _) fun _ => ?_
  refine loads_then (loads_optional _ _ _ _ _ _ _) fun coinbaseMsg => ?_
  refine loads_then (loads_optional _ _ _ _ _ _ _) fun profitSwitchCoeff => ?_
  refine loads_then (loads_optional _ _ _ _ _ _ _) fun poolZAddr => ?_
  refine loads_then (loads_optional _ _ _ _ _ _ _) fun poolTAddr => ?_
  exact loads_pure _

end Coins

section Document

variable (text : Getter String) (ms : Members)

def frontendMembers : Option CPoolFrontendConfig := do
  let isMaster ← required Getter.bool ms "isMaster"
  let httpPort ← required Getter.uint ms "httpPort"
  let workerThreadsNum ← Json.optional Getter.uint ms "workerThreadsNum" 0
  let httpThreadsNum ← Json.optional Getter.uint ms "httpThreadsNum" 0
  let adminPasswordHash ← Json.optional text ms "adminPasswordHash" ""
  let observerPasswordHash ← Json.optional text ms "observerPasswordHash" ""
  let dbPath ← required text ms "dbPath"
  let poolName ← required text ms "poolName"
  let poolHostProtocol ← required text ms "poolHostProtocol"
  let poolHostAddress ← required text ms "poolHostAddress"
  let poolActivateLinkPrefix ← required text ms "poolActivateLinkPrefix"
  let poolChangePasswordLinkPrefix ← required text ms "poolChangePasswordLinkPrefix"
  let poolActivate2faLinkPrefix ← required text ms "poolActivate2faLinkPrefix"
  let poolDeactivate2faLinkPrefix ← required text ms "poolDeactivate2faLinkPrefix"
  let smtpEnabled ← required Getter.bool ms "smtpEnabled"
  let smtpServer ← required text ms "smtpServer"
  let smtpLogin ← required text ms "smtpLogin"
  let smtpPassword ← required text ms "smtpPassword"
  let smtpSenderAddress ← required text ms "smtpSenderAddress"
  let smtpUseSmtps ← Json.optional Getter.bool ms "smtpUseSmtps" false
  let smtpUseStartTls ← Json.optional Getter.bool ms "smtpUseStartTLS" true
  return {
    isMaster, httpPort, workerThreadsNum, httpThreadsNum, adminPasswordHash, observerPasswordHash
    dbPath, poolName, poolHostProtocol, poolHostAddress, poolActivateLinkPrefix
    poolChangePasswordLinkPrefix, poolActivate2faLinkPrefix, poolDeactivate2faLinkPrefix
    smtpEnabled, smtpServer, smtpLogin, smtpPassword, smtpSenderAddress, smtpUseSmtps
    smtpUseStartTls }

theorem loads_frontend (self : CPoolFrontendConfig) :
    Loads (CPoolFrontendConfig.loadFrontend { self with coins := [], instances := [] }
      (.object ms)) True (frontendMembers Getter.string ms) := by
  unfold CPoolFrontendConfig.loadFrontend frontendMembers
  refine loads_then (loads_required _ _ _ _ _ _) fun isMaster => ?_
  refine loads_then (loads_required _ _ _ _ _ _) fun httpPort => ?_
  refine loads_then (loads_optional _ _ _ _ _ _ _) fun workerThreadsNum => ?_
  refine loads_then (loads_optional _ _ _ _ _ _ _) fun httpThreadsNum => ?_
  refine loads_then (loads_optional _ _ _ _ _ _ _) fun adminPasswordHash => ?_
  refine loads_then (loads_optional _ _ _ _ _ _ _) fun observerPasswordHash => ?_
  refine loads_then (loads_required _ _ _ _ _ _) fun dbPath => ?_
  refine loads_then (loads_required _ _ _ _ _ _) fun poolName => ?_
  refine loads_then (loads_required _ _ _ _ _ _) fun poolHostProtocol => ?_
  refine loads_then (loads_required _ _ _ _ _ _) fun poolHostAddress => ?_
  refine loads_then (loads_required _ _ _ _ _ _) fun poolActivateLinkPrefix => ?_
  refine loads_then (loads_required _ _ _ _ _ _) fun poolChangePasswordLinkPrefix => ?_
  refine loads_then (loads_required _ _ _ _ _ _) fun poolActivate2faLinkPrefix => ?_
  refine loads_then (loads_required _ _ _ _ _ _) fun poolDeactivate2faLinkPrefix => ?_
  refine loads_then (loads_required _ _ _ _ _ _) fun smtpEnabled => ?_
  refine loads_then (loads_required _ _ _ _ _ _) fun smtpServer => ?_
  refine loads_then (loads_required _ _ _ _ _ _) fun smtpLogin => ?_
  refine loads_then (loads_required _ _ _ _ _ _) fun smtpPassword => ?_
  refine loads_then (loads_required _ _ _ _ _ _) fun smtpSenderAddress => ?_
  refine loads_then (loads_optional _ _ _ _ _ _ _) fun smtpUseSmtps => ?_
  refine loads_then (loads_optional _ _ _ _ _ _ _) fun smtpUseStartTls => ?_
  exact loads_pure _

/-- The configuration of a document. -/
def configMembers : Option CPoolFrontendConfig := do
  let config ← (ms.lookup "poolfrontend").bind (ofObject (frontendMembers text))
  let coins ← required Getter.array ms "coins"
  let coins ← coins.mapM (ofObject (coinMembers text))
  let instances ← required Getter.array ms "instances"
  let instances ← instances.mapM (ofObject (instanceMembers text))
  return { config with coins, instances }

/-- The coins must be objects even once an error is set: their structure is checked first. -/
def CoinElementsSafe (coins : List Value) : Prop :=
  EachSafe (fun coin => ∀ ms, coin = .object ms → CoinSafe ms)
    (ofObject (coinMembers Getter.string)) coins

def ListsSafe : Prop :=
  Given (required Getter.array ms "coins") fun coins =>
  CoinElementsSafe coins ∧
  Given (coins.mapM (ofObject (coinMembers Getter.string))) fun _ =>
  Given (required Getter.array ms "instances") fun instances =>
  Objects (instanceMembers Getter.string) instances

/-- Every coin of the list is an object. -/
def CoinsAreObjects : Prop :=
  Given (required Getter.array ms "coins") fun coins => ∀ coin ∈ coins, coin.isObject = true

def SectionsSafe : Prop :=
  ∀ object, ms.lookup "poolfrontend" = some (.object object) →
    CoinsAreObjects ms ∧ Given (frontendMembers Getter.string object) fun _ => ListsSafe ms

theorem loads_coinElement {value : Value} (h : value.isObject = true) :
    Loads (CCoinConfig.load {} value) (∀ ms, value = .object ms → CoinSafe ms)
      (ofObject (coinMembers Getter.string) value) := by
  cases value with
  | object ms => exact loads_congr (loads_coin ms) (by simp) rfl
  | _ => cases h

/-- The result of the load, which is true as long as no error is set. -/
theorem loads_result {α : Type} (x : α) :
    Loads (do
      let acc ← get
      return (decide (acc.error = .ok), x)) True (some (true, x)) where
  failed acc h := ⟨(false, x), acc, by simp [h], h⟩
  runs _ acc h := ⟨(true, x), acc, by simp [h], .inl ⟨h, rfl⟩⟩
  aborts h := absurd trivial h

/-- The lists that follow the front end's own section. -/
def loadLists (config : CPoolFrontendConfig) (document : Value) :
    Load (Bool × CPoolFrontendConfig) := do
  let some coins ← requireArray document "." "coins" | return (false, config)
  let config := { config with coins := ← loadEach {} CCoinConfig.load config.coins coins }
  let some instances ← requireArray document "." "instances" | return (false, config)
  let config :=
    { config with instances := ← loadEach {} CInstanceConfig.load config.instances instances }
  return ((← get).error = .ok, config)

theorem loads_lists (config : CPoolFrontendConfig) (hfresh : config.coins = [])
    (hinstances : config.instances = [])
    (hcoins : CoinsAreObjects ms) :
    Loads (loadLists config (.object ms)) (ListsSafe ms)
      (do
        let coins ← required Getter.array ms "coins"
        let coins ← coins.mapM (ofObject (coinMembers Getter.string))
        let instances ← required Getter.array ms "instances"
        let instances ← instances.mapM (ofObject (instanceMembers Getter.string))
        return (true, { config with coins, instances })) := by
  unfold loadLists ListsSafe
  rw [hfresh, hinstances]
  refine loads_found rfl fun coins hfound => ?_
  refine loads_bind (loads_each fun coin hcoin =>
    loads_coinElement (hcoins coins hfound coin hcoin)) fun _ => ?_
  refine loads_found rfl fun instances _ => ?_
  refine loads_last (loads_each fun _ _ => loads_instanceElement _) fun _ => ?_
  exact loads_result _

theorem loadSections_frontend {object : Members}
    (h : ms.lookup "poolfrontend" = some (.object object)) (config : CPoolFrontendConfig) :
    config.loadSections (.object ms) =
      config.loadFrontend (.object object) >>= fun config => loadLists config (.object ms) := by
  unfold CPoolFrontendConfig.loadSections
  rw [Value.hasMember_object, Value.member_object, h]
  rfl

/-- The error of a structural check, by what it finds. -/
def structureError : Option Value → EErrorType
  | none => .notExists
  | some _ => .typeMismatch

theorem structureError_set (found : Option Value) : structureError found ≠ .ok := by
  cases found <;> simp [structureError]

theorem loadSections_missing (h : ∀ object, ms.lookup "poolfrontend" ≠ some (.object object))
    (config : CPoolFrontendConfig) :
    config.loadSections (.object ms) = fail "array of objects"
      (structureError (ms.lookup "poolfrontend")) "." "poolfrontend" (false, config) := by
  unfold CPoolFrontendConfig.loadSections
  rw [Value.hasMember_object, Value.member_object]
  cases hv : ms.lookup "poolfrontend" with
  | none => rfl
  | some v =>
    cases v with
    | object object => exact absurd hv (h object)
    | _ => rfl

/-- The record as it is declared: its lists are empty. -/
def declared (self : CPoolFrontendConfig) : CPoolFrontendConfig :=
  { self with coins := [], instances := [] }

/-- Whatever the load yields satisfies `P`. -/
def Yields {α : Type} (p : Load α) (P : α → Prop) : Prop :=
  ∀ acc x acc', p acc = some (x, acc') → P x

theorem yields_bind {α β : Type} {p : Load α} {q : α → Load β} {P : β → Prop}
    (h : ∀ x, Yields (q x) P) : Yields (p >>= q) P := by
  intro acc y acc' hrun
  obtain ⟨⟨x, mid⟩, -, hsecond⟩ := Option.bind_eq_some_iff.mp hrun
  exact h x mid y acc' hsecond

theorem yields_pure {α : Type} {x : α} {P : α → Prop} (h : P x) : Yields (pure x) P := by
  intro acc y acc' hrun
  cases hrun
  exact h

/-- A second step may rest on what the first yields. -/
theorem bind_congr_yields {α β : Type} {p : Load α} {q q' : α → Load β} {P : α → Prop}
    (hp : Yields p P) (h : ∀ x, P x → q x = q' x) : p >>= q = p >>= q' := by
  funext acc
  cases hrun : p acc with
  | none => rw [bind_aborts hrun, bind_aborts hrun]
  | some result =>
    obtain ⟨x, acc'⟩ := result
    rw [bind_run hrun, bind_run hrun, h x (hp acc x acc' hrun)]

/-- The front end's own section leaves the lists alone. -/
theorem loadFrontend_declared (self : CPoolFrontendConfig) (object : Value) :
    Yields ((declared self).loadFrontend object) fun config => declared config = config := by
  unfold CPoolFrontendConfig.loadFrontend
  iterate 21 refine yields_bind fun _ => ?_
  exact yields_pure rfl

theorem loadSections_declared {object : Members}
    (h : ms.lookup "poolfrontend" = some (.object object)) (self : CPoolFrontendConfig) :
    (declared self).loadSections (.object ms) =
      (declared self).loadFrontend (.object object) >>= fun config =>
        loadLists (declared config) (.object ms) := by
  rw [loadSections_frontend ms h]
  exact bind_congr_yields (loadFrontend_declared self _) fun config hconfig => by rw [hconfig]

theorem loads_sections (self : CPoolFrontendConfig)
    (hcoins : ∀ object, ms.lookup "poolfrontend" = some (.object object) → CoinsAreObjects ms) :
    Loads ((declared self).loadSections (.object ms)) (SectionsSafe ms)
      ((configMembers Getter.string ms).map (true, ·)) := by
  by_cases hfrontend : ∃ object, ms.lookup "poolfrontend" = some (.object object)
  · obtain ⟨object, hobject⟩ := hfrontend
    have hlists := hcoins object hobject
    rw [loadSections_declared ms hobject]
    refine loads_congr (loads_bind (loads_frontend object self) fun config =>
      loads_lists ms (declared config) rfl rfl hlists) ?_ ?_
    · constructor
      · intro hsafe other hother
        rw [hobject] at hother
        cases hother
        exact ⟨hlists, hsafe.2⟩
      · intro hsafe
        exact ⟨trivial, (hsafe object hobject).2⟩
    · have hread : (ms.lookup "poolfrontend").bind (ofObject (frontendMembers Getter.string)) =
          frontendMembers Getter.string object := by
        rw [hobject]
        rfl
      rw [configMembers, hread]
      simp only [Option.bind_eq_bind, Option.pure_def, Option.map_bind, Option.map_some,
        Function.comp_def, declared]
  · have hnone : ∀ object, ms.lookup "poolfrontend" ≠ some (.object object) :=
      fun object hobject => hfrontend ⟨object, hobject⟩
    rw [loadSections_missing ms hnone]
    refine loads_congr (loads_error (structureError_set _) _ _ _ _) ?_ ?_
    · exact iff_of_true trivial fun object hobject => absurd hobject (hnone object)
    · have hread : (ms.lookup "poolfrontend").bind
          (ofObject (frontendMembers Getter.string)) = none := by
        cases hv : ms.lookup "poolfrontend" with
        | none => rfl
        | some v =>
          cases v with
          | object object => exact absurd hv (hnone object)
          | _ => rfl
      rw [configMembers, hread]
      rfl

theorem requireArray_aborts {value : Value} (h : value.isObject = false)
    (localPath name : String) (acc : LoadError) : requireArray value localPath name acc = none := by
  cases value with
  | object ms => cases h
  | _ => rfl

/-- A coin that is no object aborts whatever was set before. -/
theorem coin_aborts {value : Value} (h : value.isObject = false) (acc : LoadError) :
    CCoinConfig.load {} value acc = none := by
  unfold CCoinConfig.load
  by_cases hok : acc.error = .ok
  · exact bind_aborts (loadRequired_aborts _ _ h _ _ _ hok)
  · have hname : jsonParseString value "name" "" "coins" acc = some ("", acc) :=
      inert_required Getter.string "string" value "name" "" "coins" acc hok
    exact (bind_run hname).trans (bind_aborts (requireArray_aborts h _ _ acc))

theorem coins_abort {coins : List Value} (h : ∃ coin ∈ coins, coin.isObject = false)
    (acc : LoadError) : loadEach {} CCoinConfig.load [] coins acc = none := by
  induction coins generalizing acc with
  | nil =>
    obtain ⟨coin, hcoin, -⟩ := h
    cases hcoin
  | cons coin rest ih =>
    by_cases hcoin : coin.isObject = false
    · exact bind_aborts (coin_aborts hcoin acc)
    · have hrest : ∃ other ∈ rest, other.isObject = false := by
        obtain ⟨other, hmem, hother⟩ := h
        cases List.mem_cons.mp hmem with
        | inl heq => exact absurd (heq ▸ hother) hcoin
        | inr hmem => exact ⟨other, hmem, hother⟩
      cases hrun : CCoinConfig.load {} coin acc with
      | none => exact bind_aborts hrun
      | some result =>
        obtain ⟨x, acc'⟩ := result
        rw [loadEach, bind_run hrun]
        exact bind_aborts (ih hrest acc')

theorem loads_total {α : Type} {p : Load α} {f : Option α} (h : Loads p True f)
    (acc : LoadError) : ∃ x acc', p acc = some (x, acc') := by
  by_cases hok : acc.error = .ok
  · obtain ⟨x, acc', hrun, -⟩ := h.runs trivial acc hok
    exact ⟨x, acc', hrun⟩
  · obtain ⟨x, acc', hrun, -⟩ := h.failed acc hok
    exact ⟨x, acc', hrun⟩

theorem sections_abort (self : CPoolFrontendConfig) {object : Members}
    (hobject : ms.lookup "poolfrontend" = some (.object object)) (h : ¬ CoinsAreObjects ms)
    (acc : LoadError) : (declared self).loadSections (.object ms) acc = none := by
  obtain ⟨config, acc', hrun⟩ := loads_total (loads_frontend object self) acc
  obtain ⟨coins, hcoins, hnot⟩ : ∃ coins, required Getter.array ms "coins" = some coins ∧
      ∃ coin ∈ coins, coin.isObject = false := by
    by_contra hall
    refine h fun coins hcoins coin hmem => ?_
    cases hcoin : coin.isObject with
    | true => rfl
    | false => exact absurd ⟨coins, hcoins, coin, hmem, hcoin⟩ hall
  have hdeclared : declared config = config := loadFrontend_declared self _ acc config acc' hrun
  have hfresh : config.coins = [] := by
    rw [← hdeclared]
    rfl
  have hfrontend : (declared self).loadFrontend (.object object) acc = some (config, acc') := hrun
  rw [loadSections_frontend ms hobject, bind_run hfrontend, loadLists, requireArray_found hcoins,
    pure_bind, hfresh]
  exact bind_aborts (coins_abort hnot acc')

end Document

/-- A document that keeps the preconditions of the accessors. -/
def DocumentSafe (document : Value) : Prop := ∃ ms, document = .object ms ∧ SectionsSafe ms

theorem load_run {self config : CPoolFrontendConfig} {document : Value} {accepted : Bool}
    {description : String} {acc : LoadError}
    (h : self.loadSections document ⟨.ok, description⟩ = some ((accepted, config), acc)) :
    self.load document description = some (accepted, config, acc.errorDescription) := by
  simp [CPoolFrontendConfig.load, h]

/-- A safe document is loaded; it is accepted exactly when every section has a value, and then
the record is that value. -/
theorem load_ends (self : CPoolFrontendConfig) {document : Value} (h : DocumentSafe document)
    (description : String) :
    ∃ accepted config description',
      (declared self).load document description = some (accepted, config, description') ∧
      ((accepted = true ∧ ofObject (configMembers Getter.string) document = some config) ∨
        (accepted = false ∧ ofObject (configMembers Getter.string) document = none)) := by
  obtain ⟨ms, rfl, hsafe⟩ := h
  have hloads := loads_sections ms self fun object hobject => (hsafe object hobject).1
  obtain ⟨⟨accepted, config⟩, acc, hrun, hend⟩ := hloads.runs hsafe ⟨.ok, description⟩ rfl
  refine ⟨accepted, config, acc.errorDescription, load_run hrun, ?_⟩
  cases hend with
  | inl hend =>
    obtain ⟨-, hspec⟩ := hend
    obtain ⟨x, hx, hpair⟩ := Option.map_eq_some_iff.mp hspec
    cases hpair
    exact .inl ⟨rfl, hx⟩
  | inr hend =>
    obtain ⟨herror, hspec⟩ := hend
    refine .inr ⟨?_, Option.map_eq_none_iff.mp hspec⟩
    cases accepted with
    | false => rfl
    | true => exact absurd (ConfigLoad.honest_sections _ _ _ _ _ hrun rfl) herror

theorem load_aborts (self : CPoolFrontendConfig) {document : Value} (h : ¬ DocumentSafe document)
    (description : String) : (declared self).load document description = none := by
  have hsections : (declared self).loadSections document ⟨.ok, description⟩ = none := by
    cases document with
    | object ms =>
      have hunsafe : ¬ SectionsSafe ms := fun hsafe => h ⟨ms, rfl, hsafe⟩
      by_cases hcoins : ∀ object, ms.lookup "poolfrontend" = some (.object object) →
          CoinsAreObjects ms
      · exact (loads_sections ms self hcoins).aborts hunsafe _ rfl
      · obtain ⟨object, hobject, hnot⟩ : ∃ object,
            ms.lookup "poolfrontend" = some (.object object) ∧ ¬ CoinsAreObjects ms := by
          by_contra hall
          exact hcoins fun object hobject => by_contra fun hnot => hall ⟨object, hobject, hnot⟩
        exact sections_abort ms self hobject hnot _
    | _ => rfl
  simp [CPoolFrontendConfig.load, hsections]

end ConfigSections
