import PoolFrontend.Json

/-!
# The configuration file

Loading threads one error and its description through every section. A helper
does nothing once an error is set; the structural checks set the error directly
and leave their section. Elements of a resized array start from zeroed records;
the frontend record itself starts with whatever its fields hold.
-/
namespace Config

open Json

inductive EErrorType where
  | ok | notExists | typeMismatch
  deriving DecidableEq, Repr

structure LoadError where
  error : EErrorType := .ok
  errorDescription : String := ""
  deriving DecidableEq, Repr

/-- A load may abort on a violated precondition of the document's accessors. -/
abbrev Load := StateT LoadError Option

def setErrorDescription (error : EErrorType) (place name requiredType : String) : Load Unit :=
  modify fun acc => match error with
    | .ok => { acc with error := error }
    | .notExists => ⟨error, "Required parameter '" ++ name ++ "' does not exists at " ++ place⟩
    | .typeMismatch =>
      ⟨error, "Type mismatch: parameter '" ++ place ++ " -> " ++ name ++ "' must be a " ++
        requiredType⟩

section Helpers

variable {α : Type} (g : Getter α) (requiredType : String)

/-- The required form shared by the helpers without a default. -/
def loadRequired (value : Value) (name : String) (out : α) (place : String) : Load α := do
  if (← get).error ≠ .ok then
    return out
  if ← value.hasMember name then
    let field ← value.member name
    if g.is field then
      return ← g.get field
    setErrorDescription .typeMismatch place name requiredType
  else
    setErrorDescription .notExists place name requiredType
  return out

/-- The form shared by the helpers with a default. -/
def loadOptional (value : Value) (name : String) (out default : α) (place : String) :
    Load α := do
  if (← get).error ≠ .ok then
    return out
  if ← value.hasMember name then
    let field ← value.member name
    if g.is field then
      return ← g.get field
    setErrorDescription .typeMismatch place name requiredType
    return out
  return default

end Helpers

/-- `IsFloat` and `GetDouble` -/
def float : Getter Double where
  is := Value.isFloat
  get v := if v.isFloat then v.getDouble else none
  admits v := by
    cases v with
    | double d => cases h : Value.isFloat (.double d) <;> simp [Value.getDouble]
    | _ => rfl

def jsonParseString := loadRequired Getter.string "string"

def jsonParseStringOr := loadOptional Getter.string "string"

def jsonParseBoolean := loadRequired Getter.bool "boolean"

def jsonParseBooleanOr := loadOptional Getter.bool "boolean"

def jsonParseUInt := loadRequired Getter.uint "unsigned integer"

def jsonParseUIntOr := loadOptional Getter.uint "unsigned integer"

def jsonParseDouble := loadRequired float "floating point number (like 1.0)"

def jsonParseDoubleOr := loadOptional float "floating point number (like 1.0)"

/-- The loop of `jsonParseStringArray`: it stops at the first element that is no string. -/
def appendStrings (name place : String) : List Value → List String → Load (List String)
  | [], out => return out
  | element :: rest, out => do
    if !element.isString then
      setErrorDescription .typeMismatch place name "array of string"
      return out
    let text ← Getter.string.get element
    appendStrings name place rest (out ++ [text])

def jsonParseStringArray (value : Value) (name : String) (out : List String) (place : String) :
    Load (List String) := do
  if (← get).error ≠ .ok then
    return out
  if ← value.hasMember name then
    let field ← value.member name
    if field.isArray then
      return ← appendStrings name place (← field.getArray) out
    setErrorDescription .typeMismatch place name "array of string"
  else
    setErrorDescription .notExists place name "array of string"
  return out

/-- `resize` to the length of the array, then `load` of each element in order. -/
def loadEach {α : Type} (fresh : α) (load : α → Value → Load α) :
    List α → List Value → Load (List α)
  | _, [] => return []
  | [], element :: rest => do
    let x ← load fresh element
    return x :: (← loadEach fresh load [] rest)
  | old :: olds, element :: rest => do
    let x ← load old element
    return x :: (← loadEach fresh load olds rest)

structure CInstanceConfig where
  name : String := ""
  type : String := ""
  protocol : String := ""
  backends : List String := []
  port : UInt32 := 0
  stratumShareDiff : Double := .finite 0
  instanceConfig : Value := .null
  deriving Repr

def CInstanceConfig.load (self : CInstanceConfig) (value : Value) : Load CInstanceConfig := do
  let mut self := { self with instanceConfig := value }
  self := { self with name := ← jsonParseString value "name" self.name "instances" }
  let localPath := "instances" ++ " -> " ++ self.name
  self := { self with type := ← jsonParseString value "type" self.type localPath }
  self := { self with protocol := ← jsonParseString value "protocol" self.protocol localPath }
  self := { self with
    backends := ← jsonParseStringArray value "backends" self.backends localPath }
  self := { self with port := ← jsonParseUIntOr value "port" self.port 0 localPath }
  if self.protocol = "stratum" then
    if ← value.hasMember "shareDiff" then
      let shareDiff ← value.member "shareDiff"
      if shareDiff.isUint64 then
        self := { self with stratumShareDiff := .finite (← shareDiff.getUint64).toNat }
      else if shareDiff.isDouble then
        self := { self with stratumShareDiff := ← shareDiff.getDouble }
      else
        self := { self with stratumShareDiff := .finite 0 }
  return self

structure CNodeConfig where
  type : String := ""
  address : String := ""
  login : String := ""
  password : String := ""
  wallet : String := ""
  longPollEnabled : Bool := false
  deriving DecidableEq, Repr

def CNodeConfig.load (path : String) (self : CNodeConfig) (value : Value) :
    Load CNodeConfig := do
  let localPath := path ++ " -> nodes"
  let mut self := self
  self := { self with type := ← jsonParseString value "type" self.type localPath }
  self := { self with address := ← jsonParseString value "address" self.address localPath }
  self := { self with login := ← jsonParseStringOr value "login" self.login "" localPath }
  self := { self with
    password := ← jsonParseStringOr value "password" self.password "" localPath }
  self := { self with wallet := ← jsonParseStringOr value "wallet" self.wallet "" localPath }
  self := { self with longPollEnabled :=
    (← jsonParseBooleanOr value "longPollEnabled" self.longPollEnabled true localPath) }
  return self

structure CFeeConfig where
  address : String := ""
  percentage : Double := .finite 0
  deriving DecidableEq, Repr

def CFeeConfig.load (path : String) (self : CFeeConfig) (value : Value) : Load CFeeConfig := do
  let localPath := path ++ " -> fees"
  let mut self := self
  self := { self with address := ← jsonParseString value "address" self.address localPath }
  self := { self with
    percentage := ← jsonParseDouble value "percentage" self.percentage localPath }
  return self

structure CMiningAddressConfig where
  address : String := ""
  privateKey : String := ""
  weight : UInt32 := 0
  deriving DecidableEq, Repr

/-- The body of the loop over `miningAddresses`. -/
def CMiningAddressConfig.load (localPath : String) (self : CMiningAddressConfig)
    (value : Value) : Load CMiningAddressConfig := do
  let mut self := self
  self := { self with address :=
    (← jsonParseString value "address" self.address (localPath ++ " -> miningAddresses")) }
  self := { self with privateKey :=
    (← jsonParseStringOr value "privateKey" self.privateKey "" (localPath ++ " -> privateKey")) }
  self := { self with weight :=
    (← jsonParseUInt value "weight" self.weight (localPath ++ " -> miningAddresses")) }
  return self

structure CCoinConfig where
  name : String := ""
  getWorkNodes : List CNodeConfig := []
  rpcNodes : List CNodeConfig := []
  fees : List CFeeConfig := []
  requiredConfirmations : UInt32 := 0
  defaultPayoutThreshold : String := ""
  minimalAllowedPayout : String := ""
  keepRoundTime : UInt32 := 0
  keepStatsTime : UInt32 := 0
  confirmationsCheckInterval : UInt32 := 0
  payoutInterval : UInt32 := 0
  balanceCheckInterval : UInt32 := 0
  statisticCheckInterval : UInt32 := 0
  shareTarget : UInt32 := 0
  stratumWorkLifeTime : UInt32 := 0
  miningAddresses : List CMiningAddressConfig := []
  coinbaseMsg : String := ""
  profitSwitchCoeff : Double := .finite 0
  poolZAddr : String := ""
  poolTAddr : String := ""
  deriving DecidableEq, Repr

/-- A structural check: the member exists and is an array, else the error is set
and the section is left. -/
def requireArray (value : Value) (localPath name : String) : Load (Option (List Value)) := do
  if !(← value.hasMember name) then
    setErrorDescription .notExists localPath name "array of objects"
    return none
  if !(← value.member name).isArray then
    setErrorDescription .typeMismatch localPath name "array of objects"
    return none
  return some (← (← value.member name).getArray)

/-- Both node lists are checked before either is read, and one message stands for
`miningAddresses` that are absent or ill-typed. -/
def CCoinConfig.load (self : CCoinConfig) (value : Value) : Load CCoinConfig := do
  let mut self := self
  self := { self with name := ← jsonParseString value "name" self.name "coins" }
  let localPath := "coins" ++ " -> " ++ self.name
  let some getWorkNodes ← requireArray value localPath "getWorkNodes" | return self
  let some rpcNodes ← requireArray value localPath "RPCNodes" | return self
  self := { self with
    getWorkNodes := ← loadEach {} (CNodeConfig.load localPath) self.getWorkNodes getWorkNodes }
  self := { self with
    rpcNodes := ← loadEach {} (CNodeConfig.load localPath) self.rpcNodes rpcNodes }
  let some fees ← requireArray value localPath "fees" | return self
  self := { self with fees := ← loadEach {} (CFeeConfig.load localPath) self.fees fees }
  self := { self with requiredConfirmations :=
    (← jsonParseUInt value "requiredConfirmations" self.requiredConfirmations localPath) }
  self := { self with defaultPayoutThreshold :=
    (← jsonParseString value "defaultPayoutThreshold" self.defaultPayoutThreshold localPath) }
  self := { self with minimalAllowedPayout :=
    (← jsonParseString value "minimalAllowedPayout" self.minimalAllowedPayout localPath) }
  self := { self with keepRoundTime :=
    (← jsonParseUInt value "keepRoundTime" self.keepRoundTime localPath) }
  self := { self with keepStatsTime :=
    (← jsonParseUInt value "keepStatsTime" self.keepStatsTime localPath) }
  self := { self with confirmationsCheckInterval :=
    (← jsonParseUInt value "confirmationsCheckInterval" self.confirmationsCheckInterval localPath) }
  self := { self with payoutInterval :=
    (← jsonParseUInt value "payoutInterval" self.payoutInterval localPath) }
  self := { self with balanceCheckInterval :=
    (← jsonParseUInt value "balanceCheckInterval" self.balanceCheckInterval localPath) }
  self := { self with statisticCheckInterval :=
    (← jsonParseUInt value "statisticCheckInterval" self.statisticCheckInterval localPath) }
  self := { self with shareTarget :=
    (← jsonParseUInt value "shareTarget" self.shareTarget localPath) }
  self := { self with stratumWorkLifeTime :=
    (← jsonParseUIntOr value "stratumWorkLifeTime" self.stratumWorkLifeTime 0 localPath) }
  if !(← value.memberIs Value.isArray "miningAddresses") then
    setErrorDescription .typeMismatch localPath "miningAddress" "array of objects"
    return self
  let miningAddresses ← (← value.member "miningAddresses").getArray
  self := { self with miningAddresses :=
    (← loadEach {} (CMiningAddressConfig.load localPath) self.miningAddresses miningAddresses) }
  self := { self with
    coinbaseMsg := ← jsonParseStringOr value "coinbaseMsg" self.coinbaseMsg "" localPath }
  self := { self with profitSwitchCoeff :=
    (← jsonParseDoubleOr value "profitSwitchCoeff" self.profitSwitchCoeff (.finite 0) localPath) }
  self := { self with
    poolZAddr := ← jsonParseStringOr value "pool_zaddr" self.poolZAddr "" localPath }
  self := { self with
    poolTAddr := ← jsonParseStringOr value "pool_taddr" self.poolTAddr "" localPath }
  return self

structure CPoolFrontendConfig where
  isMaster : Bool := false
  httpPort : UInt32 := 0
  workerThreadsNum : UInt32 := 0
  httpThreadsNum : UInt32 := 0
  adminPasswordHash : String := ""
  observerPasswordHash : String := ""
  dbPath : String := ""
  poolName : String := ""
  poolHostProtocol : String := ""
  poolHostAddress : String := ""
  poolActivateLinkPrefix : String := ""
  poolChangePasswordLinkPrefix : String := ""
  poolActivate2faLinkPrefix : String := ""
  poolDeactivate2faLinkPrefix : String := ""
  smtpEnabled : Bool := false
  smtpServer : String := ""
  smtpLogin : String := ""
  smtpPassword : String := ""
  smtpSenderAddress : String := ""
  smtpUseSmtps : Bool := false
  smtpUseStartTls : Bool := false
  coins : List CCoinConfig := []
  instances : List CInstanceConfig := []
  deriving Repr

/-- The member `poolfrontend` of the document. -/
def CPoolFrontendConfig.loadFrontend (self : CPoolFrontendConfig) (object : Value) :
    Load CPoolFrontendConfig := do
  let localPath := "poolfrontend"
  let mut self := self
  self := { self with isMaster := ← jsonParseBoolean object "isMaster" self.isMaster localPath }
  self := { self with httpPort := ← jsonParseUInt object "httpPort" self.httpPort localPath }
  self := { self with workerThreadsNum :=
    (← jsonParseUIntOr object "workerThreadsNum" self.workerThreadsNum 0 localPath) }
  self := { self with httpThreadsNum :=
    (← jsonParseUIntOr object "httpThreadsNum" self.httpThreadsNum 0 localPath) }
  self := { self with adminPasswordHash :=
    (← jsonParseStringOr object "adminPasswordHash" self.adminPasswordHash "" localPath) }
  self := { self with observerPasswordHash :=
    (← jsonParseStringOr object "observerPasswordHash" self.observerPasswordHash "" localPath) }
  self := { self with dbPath := ← jsonParseString object "dbPath" self.dbPath localPath }
  self := { self with poolName := ← jsonParseString object "poolName" self.poolName localPath }
  self := { self with poolHostProtocol :=
    (← jsonParseString object "poolHostProtocol" self.poolHostProtocol localPath) }
  self := { self with poolHostAddress :=
    (← jsonParseString object "poolHostAddress" self.poolHostAddress localPath) }
  self := { self with poolActivateLinkPrefix :=
    (← jsonParseString object "poolActivateLinkPrefix" self.poolActivateLinkPrefix localPath) }
  self := { self with poolChangePasswordLinkPrefix :=
    (← jsonParseString object "poolChangePasswordLinkPrefix" self.poolChangePasswordLinkPrefix
      localPath) }
  self := { self with poolActivate2faLinkPrefix :=
    (← jsonParseString object "poolActivate2faLinkPrefix" self.poolActivate2faLinkPrefix
      localPath) }
  self := { self with poolDeactivate2faLinkPrefix :=
    (← jsonParseString object "poolDeactivate2faLinkPrefix" self.poolDeactivate2faLinkPrefix
      localPath) }
  self := { self with smtpEnabled :=
    (← jsonParseBoolean object "smtpEnabled" self.smtpEnabled localPath) }
  self := { self with
    smtpServer := ← jsonParseString object "smtpServer" self.smtpServer localPath }
  self := { self with smtpLogin := ← jsonParseString object "smtpLogin" self.smtpLogin localPath }
  self := { self with smtpPassword :=
    (← jsonParseString object "smtpPassword" self.smtpPassword localPath) }
  self := { self with smtpSenderAddress :=
    (← jsonParseString object "smtpSenderAddress" self.smtpSenderAddress localPath) }
  self := { self with smtpUseSmtps :=
    (← jsonParseBooleanOr object "smtpUseSmtps" self.smtpUseSmtps false localPath) }
  self := { self with smtpUseStartTls :=
    (← jsonParseBooleanOr object "smtpUseStartTLS" self.smtpUseStartTls true localPath) }
  return self

/-- The sections in order; a structural error of the root ends the load. -/
def CPoolFrontendConfig.loadSections (self : CPoolFrontendConfig) (document : Value) :
    Load (Bool × CPoolFrontendConfig) := do
  let mut self := self
  if !(← document.hasMember "poolfrontend") then
    setErrorDescription .notExists "." "poolfrontend" "array of objects"
    return (false, self)
  if !(← document.member "poolfrontend").isObject then
    setErrorDescription .typeMismatch "." "poolfrontend" "array of objects"
    return (false, self)
  self := ← self.loadFrontend (← document.member "poolfrontend")
  let some coins ← requireArray document "." "coins" | return (false, self)
  self := { self with coins := ← loadEach {} CCoinConfig.load self.coins coins }
  let some instances ← requireArray document "." "instances" | return (false, self)
  self := { self with instances := ← loadEach {} CInstanceConfig.load self.instances instances }
  return ((← get).error = .ok, self)

/-- The result, the record it leaves, and the error description. -/
def CPoolFrontendConfig.load (self : CPoolFrontendConfig) (document : Value)
    (errorDescription : String) : Option (Bool × CPoolFrontendConfig × String) := do
  let ((result, config), acc) ← self.loadSections document ⟨.ok, errorDescription⟩
  return (result, config, acc.errorDescription)

end Config
