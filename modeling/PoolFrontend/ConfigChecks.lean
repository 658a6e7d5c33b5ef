import PoolFrontend.ConfigAcceptance

/-!
# The checks of a configuration

The checks of a document in the order in which the load performs them, up to the first that
fails. A failure is told from every other by the text that describes it.
-/
namespace ConfigChecks

open Json Config

/-- What a field must be. -/
inductive RequiredType where
  | string | boolean | unsignedInteger | floatingPoint | arrayOfString | arrayOfObjects
  deriving DecidableEq, Repr

def RequiredType.text : RequiredType → String
  | .string => "string"
  | .boolean => "boolean"
  | .unsignedInteger => "unsigned integer"
  | .floatingPoint => "floating point number (like 1.0)"
  | .arrayOfString => "array of string"
  | .arrayOfObjects => "array of objects"

/-- A single word between the quotes of a message. -/
abbrev Quotable (text : String) : Prop := '\x27' ∉ text.toList ∧ ' ' ∉ text.toList

/-- The name of a field. -/
structure FieldName where
  text : String
  quotable : Quotable text

inductive Failure where
  | notExists (place : String) (name : FieldName)
  | typeMismatch (place : String) (name : FieldName) (requiredType : RequiredType)

namespace Failure

def error : Failure → EErrorType
  | .notExists .. => .notExists
  | .typeMismatch .. => .typeMismatch

def description : Failure → String
  | .notExists place name =>
    "Required parameter '" ++ name.text ++ "' does not exists at " ++ place
  | .typeMismatch place name requiredType =>
    "Type mismatch: parameter '" ++ place ++ " -> " ++ name.text ++ "' must be a " ++
      requiredType.text

def record (failure : Failure) : LoadError := ⟨failure.error, failure.description⟩

theorem record_error (failure : Failure) : failure.record.error ≠ .ok := by
  cases failure with
  | notExists => exact EErrorType.noConfusion
  | typeMismatch => exact EErrorType.noConfusion

end Failure

section Texts

variable {α : Type} {a : α} {x x' z z' : List α}

/-- Two texts split at the first `a`. -/
theorem split_first (hx : a ∉ x) (hx' : a ∉ x') (h : x ++ a :: z = x' ++ a :: z') :
    x = x' ∧ z = z' := by
  induction x generalizing x' with
  | nil =>
    cases x' with
    | nil => exact ⟨rfl, (List.cons.inj h).2⟩
    | cons b x' =>
      have hhead : a = b := (List.cons.inj h).1
      rw [hhead] at hx'
      exact absurd List.mem_cons_self hx'
  | cons b x ih =>
    cases x' with
    | nil =>
      have hhead : b = a := (List.cons.inj h).1
      rw [hhead] at hx
      exact absurd List.mem_cons_self hx
    | cons c x' =>
      obtain ⟨hhead, htail⟩ := List.cons.inj h
      have hrest := ih (List.not_mem_of_not_mem_cons hx) (List.not_mem_of_not_mem_cons hx') htail
      exact ⟨by rw [hhead, hrest.1], hrest.2⟩

/-- Two texts split at the last `a`. -/
theorem split_last (hz : a ∉ z) (hz' : a ∉ z') (h : x ++ a :: z = x' ++ a :: z') :
    x = x' ∧ z = z' := by
  have hreverse := congrArg List.reverse h
  simp only [List.reverse_append, List.reverse_cons, List.append_assoc,
    List.singleton_append] at hreverse
  obtain ⟨hz, hx⟩ := split_first (by simpa using hz) (by simpa using hz') hreverse
  exact ⟨List.reverse_injective hx, List.reverse_injective hz⟩

end Texts

theorem RequiredType.text_quoteless (requiredType : RequiredType) :
    '\x27' ∉ " must be a ".toList ++ requiredType.text.toList := by
  cases requiredType <;> decide

theorem RequiredType.text_injective : Function.Injective RequiredType.text := by
  intro requiredType other h
  cases requiredType <;> cases other <;> first | rfl | exact absurd h (by decide)

theorem FieldName.text_injective : Function.Injective FieldName.text := by
  rintro ⟨text, _⟩ ⟨other, _⟩ h
  cases h
  rfl

theorem notExists_chars (place : String) (name : FieldName) :
    (Failure.notExists place name).description.toList = "Required parameter '".toList ++
      (name.text.toList ++ '\x27' :: (" does not exists at ".toList ++ place.toList)) := by
  have hquote : "' does not exists at ".toList = '\x27' :: " does not exists at ".toList := by
    simp
  have hread : (Failure.notExists place name).description =
      "Required parameter '" ++ name.text ++ "' does not exists at " ++ place := rfl
  simp only [hread, String.toList_append, hquote, List.append_assoc, List.cons_append]

theorem typeMismatch_chars (place : String) (name : FieldName) (requiredType : RequiredType) :
    (Failure.typeMismatch place name requiredType).description.toList =
      "Type mismatch: parameter '".toList ++ (((place.toList ++ " ->".toList) ++
        ' ' :: name.text.toList) ++
        '\x27' :: (" must be a ".toList ++ requiredType.text.toList)) := by
  have hquote : "' must be a ".toList = '\x27' :: " must be a ".toList := by simp
  have hblank : " -> ".toList = " ->".toList ++ [' '] := by simp
  have hread : (Failure.typeMismatch place name requiredType).description =
      "Type mismatch: parameter '" ++ place ++ " -> " ++ name.text ++ "' must be a " ++
        requiredType.text := rfl
  simp only [hread, String.toList_append, hquote, hblank, List.append_assoc, List.cons_append,
    List.nil_append]

/-- The message names the check that failed. -/
theorem description_injective : Function.Injective Failure.description := by
  intro failure other h
  have hchars := congrArg String.toList h
  cases failure with
  | notExists place name =>
    cases other with
    | notExists place' name' =>
      -- The place may have quotes, so the name is what stands before the first.
      rw [notExists_chars, notExists_chars] at hchars
      obtain ⟨hname, hplace⟩ := split_first name.quotable.1 name'.quotable.1
        (List.append_cancel_left hchars)
      have hname := FieldName.text_injective (String.toList_injective hname)
      have hplace := String.toList_injective (List.append_cancel_left hplace)
      rw [hname, hplace]
    | typeMismatch =>
      rw [notExists_chars, typeMismatch_chars] at hchars
      exact absurd (congrArg List.head? hchars) (by simp)
  | typeMismatch place name requiredType =>
    cases other with
    | notExists =>
      rw [notExists_chars, typeMismatch_chars] at hchars
      exact absurd (congrArg List.head? hchars) (by simp)
    | typeMismatch place' name' requiredType' =>
      -- Here the place comes first: the name stands between the last blank and the last quote.
      rw [typeMismatch_chars, typeMismatch_chars] at hchars
      obtain ⟨hfield, htype⟩ := split_last requiredType.text_quoteless requiredType'.text_quoteless
        (List.append_cancel_left hchars)
      obtain ⟨hplace, hname⟩ := split_last name.quotable.2 name'.quotable.2 hfield
      have hname := FieldName.text_injective (String.toList_injective hname)
      have hplace := String.toList_injective (List.append_cancel_right hplace)
      have htype := RequiredType.text_injective
        (String.toList_injective (List.append_cancel_left htype))
      rw [hname, hplace, htype]

/-- Nothing, or the first check that fails. -/
abbrev Checks := Except Failure

section Fields

variable {α : Type} (g : Getter α) (requiredType : RequiredType) (ms : Members) (place : String)
  (name : FieldName)

def checkRequired : Checks Unit :=
  match ms.lookup name.text with
  | none => .error (.notExists place name)
  | some v => if g.is v then .ok () else .error (.typeMismatch place name requiredType)

def checkOptional : Checks Unit :=
  match ms.lookup name.text with
  | none => .ok ()
  | some v => if g.is v then .ok () else .error (.typeMismatch place name requiredType)

end Fields

/-- An array of strings is one value. -/
def texts : Getter (List String) where
  is v := (v.getArray.bind fun elements => elements.mapM Getter.string.get).isSome
  get v := v.getArray.bind fun elements => elements.mapM Getter.string.get
  admits _ := rfl

/-- The members of an object. -/
def members : Value → Members
  | .object ms => ms
  | _ => []

/-- The structural checks; they hand on the members of the elements. -/
def checkArray (ms : Members) (place : String) (name : FieldName) : Checks (List Members) :=
  match ms.lookup name.text with
  | none => .error (.notExists place name)
  | some (.array elements) => .ok (elements.map members)
  | some _ => .error (.typeMismatch place name .arrayOfObjects)

/-- The message leaves the last letters of `miningAddresses` out, and one message stands for
both failures. -/
def checkMiningAddresses (ms : Members) (place : String) : Checks (List Members) :=
  match ms.lookup "miningAddresses" with
  | some (.array elements) => .ok (elements.map members)
  | _ => .error (.typeMismatch place ⟨"miningAddress", by decide⟩ .arrayOfObjects)

def checkFrontendObject (ms : Members) : Checks Members :=
  match ms.lookup "poolfrontend" with
  | none => .error (.notExists "." ⟨"poolfrontend", by decide⟩)
  | some (.object object) => .ok object
  | some _ => .error (.typeMismatch "." ⟨"poolfrontend", by decide⟩ .arrayOfObjects)

def nodeChecks (path : String) (ms : Members) : Checks Unit := do
  let localPath := path ++ " -> nodes"
  checkRequired Getter.string .string ms localPath ⟨"type", by decide⟩
  checkRequired Getter.string .string ms localPath ⟨"address", by decide⟩
  checkOptional Getter.string .string ms localPath ⟨"login", by decide⟩
  checkOptional Getter.string .string ms localPath ⟨"password", by decide⟩
  checkOptional Getter.string .string ms localPath ⟨"wallet", by decide⟩
  checkOptional Getter.bool .boolean ms localPath ⟨"longPollEnabled", by decide⟩

def feeChecks (path : String) (ms : Members) : Checks Unit := do
  let localPath := path ++ " -> fees"
  checkRequired Getter.string .string ms localPath ⟨"address", by decide⟩
  checkRequired float .floatingPoint ms localPath ⟨"percentage", by decide⟩

def miningAddressChecks (localPath : String) (ms : Members) : Checks Unit := do
  checkRequired Getter.string .string ms (localPath ++ " -> miningAddresses")
    ⟨"address", by decide⟩
  checkOptional Getter.string .string ms (localPath ++ " -> privateKey") ⟨"privateKey", by decide⟩
  checkRequired Getter.uint .unsignedInteger ms (localPath ++ " -> miningAddresses")
    ⟨"weight", by decide⟩

/-- The name of a coin or an instance; one that is not read is empty. -/
def nameOf (ms : Members) : String := (required Getter.string ms "name").getD ""

/-- The checks of a coin that follow its name. -/
def coinSectionChecks (ms : Members) (name : String) : Checks Unit := do
  let localPath := "coins" ++ " -> " ++ name
  let getWorkNodes ← checkArray ms localPath ⟨"getWorkNodes", by decide⟩
  let rpcNodes ← checkArray ms localPath ⟨"RPCNodes", by decide⟩
  getWorkNodes.forM (nodeChecks localPath)
  rpcNodes.forM (nodeChecks localPath)
  let fees ← checkArray ms localPath ⟨"fees", by decide⟩
  fees.forM (feeChecks localPath)
  checkRequired Getter.uint .unsignedInteger ms localPath ⟨"requiredConfirmations", by decide⟩
  checkRequired Getter.string .string ms localPath ⟨"defaultPayoutThreshold", by decide⟩
  checkRequired Getter.string .string ms localPath ⟨"minimalAllowedPayout", by decide⟩
  checkRequired Getter.uint .unsignedInteger ms localPath ⟨"keepRoundTime", by decide⟩
  checkRequired Getter.uint .unsignedInteger ms localPath ⟨"keepStatsTime", by decide⟩
  checkRequired Getter.uint .unsignedInteger ms localPath ⟨"confirmationsCheckInterval", by decide⟩
  checkRequired Getter.uint .unsignedInteger ms localPath ⟨"payoutInterval", by decide⟩
  checkRequired Getter.uint .unsignedInteger ms localPath ⟨"balanceCheckInterval", by decide⟩
  checkRequired Getter.uint .unsignedInteger ms localPath ⟨"statisticCheckInterval", by decide⟩
  checkRequired Getter.uint .unsignedInteger ms localPath ⟨"shareTarget", by decide⟩
  checkOptional Getter.uint .unsignedInteger ms localPath ⟨"stratumWorkLifeTime", by decide⟩
  let miningAddresses ← checkMiningAddresses ms localPath
  miningAddresses.forM (miningAddressChecks localPath)
  checkOptional Getter.string .string ms localPath ⟨"coinbaseMsg", by decide⟩
  checkOptional float .floatingPoint ms localPath ⟨"profitSwitchCoeff", by decide⟩
  checkOptional Getter.string .string ms localPath ⟨"pool_zaddr", by decide⟩
  checkOptional Getter.string .string ms localPath ⟨"pool_taddr", by decide⟩

def coinChecks (ms : Members) : Checks Unit := do
  checkRequired Getter.string .string ms "coins" ⟨"name", by decide⟩
  coinSectionChecks ms (nameOf ms)

def instanceSectionChecks (ms : Members) (name : String) : Checks Unit := do
  let localPath := "instances" ++ " -> " ++ name
  checkRequired Getter.string .string ms localPath ⟨"type", by decide⟩
  checkRequired Getter.string .string ms localPath ⟨"protocol", by decide⟩
  checkRequired texts .arrayOfString ms localPath ⟨"backends", by decide⟩
  checkOptional Getter.uint .unsignedInteger ms localPath ⟨"port", by decide⟩

def instanceChecks (ms : Members) : Checks Unit := do
  checkRequired Getter.string .string ms "instances" ⟨"name", by decide⟩
  instanceSectionChecks ms (nameOf ms)

def frontendChecks (ms : Members) : Checks Unit := do
  let localPath := "poolfrontend"
  checkRequired Getter.bool .boolean ms localPath ⟨"isMaster", by decide⟩
  checkRequired Getter.uint .unsignedInteger ms localPath ⟨"httpPort", by decide⟩
  checkOptional Getter.uint .unsignedInteger ms localPath ⟨"workerThreadsNum", by decide⟩
  checkOptional Getter.uint .unsignedInteger ms localPath ⟨"httpThreadsNum", by decide⟩
  checkOptional Getter.string .string ms localPath ⟨"adminPasswordHash", by decide⟩
  checkOptional Getter.string .string ms localPath ⟨"observerPasswordHash", by decide⟩
  checkRequired Getter.string .string ms localPath ⟨"dbPath", by decide⟩
  checkRequired Getter.string .string ms localPath ⟨"poolName", by decide⟩
  checkRequired Getter.string .string ms localPath ⟨"poolHostProtocol", by decide⟩
  checkRequired Getter.string .string ms localPath ⟨"poolHostAddress", by decide⟩
  checkRequired Getter.string .string ms localPath ⟨"poolActivateLinkPrefix", by decide⟩
  checkRequired Getter.string .string ms localPath ⟨"poolChangePasswordLinkPrefix", by decide⟩
  checkRequired Getter.string .string ms localPath ⟨"poolActivate2faLinkPrefix", by decide⟩
  checkRequired Getter.string .string ms localPath ⟨"poolDeactivate2faLinkPrefix", by decide⟩
  checkRequired Getter.bool .boolean ms localPath ⟨"smtpEnabled", by decide⟩
  checkRequired Getter.string .string ms localPath ⟨"smtpServer", by decide⟩
  checkRequired Getter.string .string ms localPath ⟨"smtpLogin", by decide⟩
  checkRequired Getter.string .string ms localPath ⟨"smtpPassword", by decide⟩
  checkRequired Getter.string .string ms localPath ⟨"smtpSenderAddress", by decide⟩
  checkOptional Getter.bool .boolean ms localPath ⟨"smtpUseSmtps", by decide⟩
  checkOptional Getter.bool .boolean ms localPath ⟨"smtpUseStartTLS", by decide⟩

/-- The checks of the lists that follow the front end's own section. -/
def listChecks (ms : Members) : Checks Unit := do
  let coins ← checkArray ms "." ⟨"coins", by decide⟩
  coins.forM coinChecks
  let instances ← checkArray ms "." ⟨"instances", by decide⟩
  instances.forM instanceChecks

def documentChecks (ms : Members) : Checks Unit := do
  let object ← checkFrontendObject ms
  frontendChecks object
  listChecks ms

/-- This check, or the last of those that follow it: the structural checks are made even once an
error is set, and the last of them that fails is the one that stands. -/
def structural {α : Type} (check : Checks α) (last : α → Option Failure) : Option Failure :=
  match check with
  | .ok x => last x
  | .error failure => some failure

/-- After two sections: the second sets `inner` when it begins without an error, and `outer` when
the first, which made the checks `c`, has failed. -/
def after {α : Type} (c : Checks α) (first outer inner : Option Failure) : Option Failure :=
  match c with
  | .ok _ => inner
  | .error _ => outer.or first

/-- After a list that begins with an error. -/
def eachOuter (outer : Members → Option Failure) : List Members → Option Failure
  | [] => none
  | ms :: rest => (eachOuter outer rest).or (outer ms)

/-- After a list that begins without an error. -/
def eachInner (checks : Members → Checks Unit) (outer inner : Members → Option Failure) :
    List Members → Option Failure
  | [] => none
  | ms :: rest =>
    after (checks ms) (inner ms) (eachOuter outer rest) (eachInner checks outer inner rest)

def coinStructure (ms : Members) (name : String) : Option Failure :=
  let localPath := "coins" ++ " -> " ++ name
  structural (checkArray ms localPath ⟨"getWorkNodes", by decide⟩) fun _ =>
  structural (checkArray ms localPath ⟨"RPCNodes", by decide⟩) fun _ =>
  structural (checkArray ms localPath ⟨"fees", by decide⟩) fun _ =>
  structural (checkMiningAddresses ms localPath) fun _ => none

/-- Coins that are reached with an error set: their names are not read. -/
def coinsOuter : List Members → Option Failure := eachOuter fun coin => coinStructure coin ""

def coinsInner : List Members → Option Failure :=
  eachInner coinChecks (fun coin => coinStructure coin "") fun coin =>
    coinStructure coin (nameOf coin)

def listStructure (coinsLast : List Members → Option Failure) (ms : Members) : Option Failure :=
  structural (checkArray ms "." ⟨"coins", by decide⟩) fun coins =>
  (structural (checkArray ms "." ⟨"instances", by decide⟩) fun _ => none).or (coinsLast coins)

/-- The last structural check of a document that fails. -/
def lastStructural (ms : Members) : Option Failure :=
  structural (checkFrontendObject ms) fun object =>
  match frontendChecks object with
  | .ok _ => listStructure coinsInner ms
  | .error _ => listStructure coinsOuter ms

end ConfigChecks
