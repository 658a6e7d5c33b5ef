import PoolFrontend.Config

/-!
# How a load ends

Three things say how a load ends: whether it keeps the preconditions of the accessors, whether
it sets an error, and what it yields otherwise. Once an error is set a load leaves it set and,
on the values it is specified for, aborts no more.
-/
namespace ConfigOutcome

open PartialState Json Config

/-- Begun with an error a load ends with one; begun without, it aborts unless it is `safe`, and
otherwise ends without an error exactly when `f` has a value, which it yields. -/
structure Loads {α : Type} (p : Load α) (safe : Prop) (f : Option α) : Prop where
  failed : ∀ acc, acc.error ≠ .ok → ∃ x acc', p acc = some (x, acc') ∧ acc'.error ≠ .ok
  runs : safe → ∀ acc, acc.error = .ok → ∃ x acc', p acc = some (x, acc') ∧
    ((acc'.error = .ok ∧ f = some x) ∨ (acc'.error ≠ .ok ∧ f = none))
  aborts : ¬ safe → ∀ acc, acc.error = .ok → p acc = none

section Rules

variable {α β : Type}

theorem loads_pure (x : α) : Loads (pure x) True (some x) where
  failed acc h := ⟨x, acc, rfl, h⟩
  runs _ acc h := ⟨x, acc, rfl, .inl ⟨h, rfl⟩⟩
  aborts h := absurd trivial h

theorem loads_bind {p : Load α} {q : α → Load β} {safe : Prop} {safe' : α → Prop}
    {f : Option α} {g : α → Option β} (hp : Loads p safe f)
    (hq : ∀ x, Loads (q x) (safe' x) (g x)) :
    Loads (p >>= q) (safe ∧ ∀ x, f = some x → safe' x) (f >>= g) where
  failed acc h := by
    obtain ⟨x, mid, hrun, hmid⟩ := hp.failed acc h
    obtain ⟨y, acc', hrest, herror⟩ := (hq x).failed mid hmid
    exact ⟨y, acc', by rw [bind_run hrun, hrest], herror⟩
  runs hsafe acc h := by
    obtain ⟨x, mid, hrun, ⟨hmid, hx⟩ | ⟨hmid, hnone⟩⟩ := hp.runs hsafe.1 acc h
    · obtain ⟨y, acc', hrest, hend⟩ := (hq x).runs (hsafe.2 x hx) mid hmid
      refine ⟨y, acc', by rw [bind_run hrun, hrest], ?_⟩
      simpa [hx] using hend
    · obtain ⟨y, acc', hrest, herror⟩ := (hq x).failed mid hmid
      exact ⟨y, acc', by rw [bind_run hrun, hrest], .inr ⟨herror, by simp [hnone]⟩⟩
  aborts hunsafe acc h := by
    by_cases hsafe : safe
    · obtain ⟨x, hx, hnot⟩ : ∃ x, f = some x ∧ ¬ safe' x := by
        by_contra hall
        exact hunsafe ⟨hsafe, fun x hx => by_contra fun hnot => hall ⟨x, hx, hnot⟩⟩
      obtain ⟨y, mid, hrun, ⟨hmid, hy⟩ | ⟨-, hnone⟩⟩ := hp.runs hsafe acc h
      · rw [hx] at hy
        cases hy
        rw [bind_run hrun]
        exact (hq x).aborts hnot mid hmid
      · rw [hx] at hnone
        cases hnone
    · exact bind_aborts (hp.aborts hsafe acc h)

/-- Two loads that keep the preconditions. -/
theorem loads_then {p : Load α} {q : α → Load β} {f : Option α} {g : α → Option β}
    (hp : Loads p True f) (hq : ∀ x, Loads (q x) True (g x)) : Loads (p >>= q) True (f >>= g) := by
  have hbind := loads_bind hp hq
  simpa using hbind

theorem loads_congr {p : Load α} {safe safe' : Prop} {f f' : Option α} (h : Loads p safe f)
    (hsafe : safe ↔ safe') (hf : f = f') : Loads p safe' f' := by
  rw [← hf, ← propext hsafe]
  exact h

/-- A step that does nothing once an error is set. -/
def Inert (p : Load α) (x : α) : Prop := ∀ acc, acc.error ≠ .ok → p acc = some (x, acc)

theorem inert_bind {p : Load α} {q : α → Load β} {x : α} {y : β} (hp : Inert p x)
    (hq : Inert (q x) y) : Inert (p >>= q) y := by
  intro acc h
  rw [bind_run (hp acc h), hq acc h]

theorem inert_pure (x : α) : Inert (pure x) x := fun _ _ => rfl

/-- A load that leaves an error as it is, and without one does what another load does. -/
theorem loads_checked {p q : Load α} {out : α} {f : Option α} (hinert : Inert p out)
    (hruns : ∀ acc, acc.error = .ok → p acc = q acc) (hq : Loads q True f) : Loads p True f where
  failed acc h := ⟨out, acc, hinert acc h, h⟩
  runs hsafe acc h := by
    rw [hruns acc h]
    exact hq.runs hsafe acc h
  aborts h := absurd trivial h

/-- An error that is set, whatever was set before. -/
theorem loads_error {error : EErrorType} (h : error ≠ .ok) (place name requiredType : String)
    (x : α) : Loads (do setErrorDescription error place name requiredType; return x) True none := by
  have hrun : ∀ acc, ∃ acc', (do
      setErrorDescription error place name requiredType
      return x : Load α) acc = some (x, acc') ∧ acc'.error ≠ .ok := by
    intro acc
    cases error with
    | ok => exact absurd rfl h
    | notExists => exact ⟨_, rfl, by simp⟩
    | typeMismatch => exact ⟨_, rfl, by simp⟩
  refine ⟨fun acc _ => ⟨x, hrun acc⟩, fun _ acc _ => ?_, fun hnot => absurd trivial hnot⟩
  obtain ⟨acc', hend, herror⟩ := hrun acc
  exact ⟨x, acc', hend, .inr ⟨herror, rfl⟩⟩

end Rules

section Helpers

variable {α : Type} (g : Getter α) (requiredType : String)

theorem inert_required (value : Value) (name : String) (out : α) (place : String) :
    Inert (loadRequired g requiredType value name out place) out := by
  intro acc h
  simp [loadRequired, h]

theorem inert_optional (value : Value) (name : String) (out default : α) (place : String) :
    Inert (loadOptional g requiredType value name out default place) out := by
  intro acc h
  simp [loadOptional, h]

/-- The error a helper sets. -/
def fail (error : EErrorType) (place name : String) (out : α) : Load α := do
  setErrorDescription error place name requiredType
  return out

theorem loads_notExists (place name : String) (out : α) :
    Loads (fail requiredType .notExists place name out) True none :=
  loads_error (by decide) place name requiredType out

theorem loads_typeMismatch (place name : String) (out : α) :
    Loads (fail requiredType .typeMismatch place name out) True none :=
  loads_error (by decide) place name requiredType out

/-- On an object and without an error, a required field is read or an error is set. -/
theorem loadRequired_object (ms : Members) (name : String) (out : α) (place : String)
    {acc : LoadError} (h : acc.error = .ok) :
    loadRequired g requiredType (.object ms) name out place acc =
      (match ms.lookup name with
      | some v => match g.get v with
        | some x => pure x
        | none => fail requiredType .typeMismatch place name out
      | none => fail requiredType .notExists place name out) acc := by
  cases hv : ms.lookup name with
  | none => simp [loadRequired, fail, hv, h]
  | some v =>
    have hg := g.admits v
    cases hx : g.get v <;> rw [hx] at hg <;>
      simp [loadRequired, fail, hv, h, hx, hg]

theorem loads_required (ms : Members) (name : String) (out : α) (place : String) :
    Loads (loadRequired g requiredType (.object ms) name out place) True (required g ms name) := by
  apply loads_checked
  · exact inert_required g requiredType _ name out place
  · exact fun acc => loadRequired_object g requiredType ms name out place
  · rw [required]
    cases hv : ms.lookup name with
    | none => exact loads_notExists requiredType place name out
    | some v =>
      rw [Option.bind_some]
      cases hx : g.get v with
      | none =>
        simp only [hx]
        exact loads_typeMismatch requiredType place name out
      | some x =>
        simp only [hx]
        exact loads_pure x

theorem loadOptional_object (ms : Members) (name : String) (out default : α) (place : String)
    {acc : LoadError} (h : acc.error = .ok) :
    loadOptional g requiredType (.object ms) name out default place acc =
      (match ms.lookup name with
      | some v => match g.get v with
        | some x => pure x
        | none => fail requiredType .typeMismatch place name out
      | none => pure default) acc := by
  cases hv : ms.lookup name with
  | none => simp [loadOptional, hv, h]
  | some v =>
    have hg := g.admits v
    cases hx : g.get v <;> rw [hx] at hg <;>
      simp [loadOptional, fail, hv, h, hx, hg]

theorem loads_optional (ms : Members) (name : String) (out default : α) (place : String) :
    Loads (loadOptional g requiredType (.object ms) name out default place) True
      (Json.optional g ms name default) := by
  apply loads_checked
  · exact inert_optional g requiredType _ name out default place
  · exact fun acc => loadOptional_object g requiredType ms name out default place
  · rw [Json.optional]
    cases hv : ms.lookup name with
    | none => exact loads_pure default
    | some v =>
      cases hx : g.get v with
      | none =>
        simp only [hx]
        exact loads_typeMismatch requiredType place name out
      | some x =>
        simp only [hx]
        exact loads_pure x

/-- A value that is no object has no members to ask for. -/
theorem loadRequired_aborts {value : Value} (hvalue : value.isObject = false) (name : String)
    (out : α) (place : String) {acc : LoadError} (h : acc.error = .ok) :
    loadRequired g requiredType value name out place acc = none := by
  cases value with
  | object ms => simp [Value.isObject] at hvalue
  | _ => simp [loadRequired, Value.hasMember, h]

end Helpers

section Arrays

variable {α : Type}

theorem loads_appendStrings (name place : String) (elements : List Value) (out : List String) :
    Loads (appendStrings name place elements out) True
      ((elements.mapM Getter.string.get).map (out ++ ·)) := by
  induction elements generalizing out with
  | nil => simpa [appendStrings] using loads_pure out
  | cons element rest ih =>
    cases element with
    | string s =>
      have hrest := ih (out ++ [cString s])
      have hread : appendStrings name place (.string s :: rest) out =
          appendStrings name place rest (out ++ [cString s]) := rfl
      rw [hread]
      have hget : Getter.string.get (.string s) = some (cString s) := rfl
      refine loads_congr hrest Iff.rfl ?_
      rw [List.mapM_cons, hget]
      cases rest.mapM Getter.string.get <;> simp
    | _ => exact loads_typeMismatch "array of string" place name out

/-- An array of strings, read by `text`. -/
def strings (text : Getter String) (ms : Members) (name : String) : Option (List String) :=
  (required Getter.array ms name).bind fun elements => elements.mapM text.get

theorem inert_stringArray (value : Value) (name : String) (out : List String) (place : String) :
    Inert (jsonParseStringArray value name out place) out := by
  intro acc h
  simp [jsonParseStringArray, h]

theorem stringArray_object (ms : Members) (name place : String) {acc : LoadError}
    (h : acc.error = .ok) :
    jsonParseStringArray (.object ms) name [] place acc =
      (match ms.lookup name with
      | some (.array elements) => appendStrings name place elements []
      | some _ => fail "array of string" .typeMismatch place name []
      | none => fail "array of string" .notExists place name []) acc := by
  cases hv : ms.lookup name with
  | none => simp [jsonParseStringArray, fail, hv, h]
  | some v =>
    cases v <;> simp [jsonParseStringArray, fail, hv, h, Value.isArray, Value.getArray]

theorem loads_stringArray (ms : Members) (name place : String) :
    Loads (jsonParseStringArray (.object ms) name [] place) True
      (strings Getter.string ms name) := by
  apply loads_checked
  · exact inert_stringArray _ name [] place
  · exact fun acc => stringArray_object ms name place
  · rw [strings, required]
    cases hv : ms.lookup name with
    | none => exact loads_notExists _ place name []
    | some v =>
      cases v with
      | array elements =>
        have helements := loads_appendStrings name place elements []
        have hread : ((elements.mapM Getter.string.get).map ([] ++ ·)) =
            elements.mapM Getter.string.get := by simp
        rw [hread] at helements
        exact helements
      | _ => exact loads_typeMismatch _ place name []

/-- Safe elements up to the first that is not accepted. -/
def EachSafe {β : Type} (safe : β → Prop) (f : β → Option α) : List β → Prop
  | [] => True
  | element :: rest => safe element ∧ ((f element).isSome = true → EachSafe safe f rest)

/-- The loop over an array, into fresh records. -/
theorem loads_each {fresh : α} {load : α → Value → Load α} {safe : Value → Prop}
    {f : Value → Option α} {elements : List Value}
    (h : ∀ element ∈ elements, Loads (load fresh element) (safe element) (f element)) :
    Loads (loadEach fresh load [] elements) (EachSafe safe f elements) (elements.mapM f) := by
  induction elements with
  | nil => exact loads_pure []
  | cons element rest ih =>
    have hrest := ih fun w hw => h w (List.mem_cons_of_mem _ hw)
    have hbind := loads_bind (h element (by simp)) fun x =>
      loads_bind hrest fun xs => loads_pure (x :: xs)
    refine loads_congr hbind ?_ ?_
    · rw [EachSafe, Option.isSome_iff_exists]
      simp
    · rw [List.mapM_cons]
      rfl

end Arrays

section Sections

variable (text : Getter String) (ms : Members)

def nodeMembers : Option CNodeConfig := do
  let type ← required text ms "type"
  let address ← required text ms "address"
  let login ← Json.optional text ms "login" ""
  let password ← Json.optional text ms "password" ""
  let wallet ← Json.optional text ms "wallet" ""
  let longPollEnabled ← Json.optional Getter.bool ms "longPollEnabled" true
  return { type, address, login, password, wallet, longPollEnabled }

def feeMembers : Option CFeeConfig := do
  let address ← required text ms "address"
  let percentage ← required float ms "percentage"
  return { address, percentage }

def miningAddressMembers : Option CMiningAddressConfig := do
  let address ← required text ms "address"
  let privateKey ← Json.optional text ms "privateKey" ""
  let weight ← required Getter.uint ms "weight"
  return { address, privateKey, weight }

/-- A share difficulty of any other type counts as zero. -/
def shareDiff : Double :=
  match ms.lookup "shareDiff" with
  | some (.int i) => if 0 ≤ i ∧ i < 2 ^ 64 then .finite i else .finite 0
  | some (.double d) => d
  | _ => .finite 0

def instanceMembers : Option CInstanceConfig := do
  let name ← required text ms "name"
  let type ← required text ms "type"
  let protocol ← required text ms "protocol"
  let backends ← strings text ms "backends"
  let port ← Json.optional Getter.uint ms "port" 0
  return {
    name, type, protocol, backends, port
    stratumShareDiff := if protocol = "stratum" then shareDiff ms else .finite 0
    instanceConfig := .object ms }

theorem loads_node (path : String) :
    Loads (CNodeConfig.load path {} (.object ms)) True (nodeMembers Getter.string ms) := by
  unfold CNodeConfig.load nodeMembers
  refine loads_then (loads_required _ _ _ _ _ _) fun type => ?_
  refine loads_then (loads_required _ _ _ _ _ _) fun address => ?_
  refine loads_then (loads_optional _ _ _ _ _ _ _) fun login => ?_
  refine loads_then (loads_optional _ _ _ _ _ _ _) fun password => ?_
  refine loads_then (loads_optional _ _ _ _ _ _ _) fun wallet => ?_
  refine loads_then (loads_optional _ _ _ _ _ _ _) fun longPollEnabled => ?_
  exact loads_pure _

theorem loads_fee (path : String) :
    Loads (CFeeConfig.load path {} (.object ms)) True (feeMembers Getter.string ms) := by
  unfold CFeeConfig.load feeMembers
  refine loads_then (loads_required _ _ _ _ _ _) fun address => ?_
  refine loads_then (loads_required _ _ _ _ _ _) fun percentage => ?_
  exact loads_pure _

theorem loads_miningAddress (localPath : String) :
    Loads (CMiningAddressConfig.load localPath {} (.object ms)) True
      (miningAddressMembers Getter.string ms) := by
  unfold CMiningAddressConfig.load miningAddressMembers
  refine loads_then (loads_required _ _ _ _ _ _) fun address => ?_
  refine loads_then (loads_optional _ _ _ _ _ _ _) fun privateKey => ?_
  refine loads_then (loads_required _ _ _ _ _ _) fun weight => ?_
  exact loads_pure _

theorem shareDiff_uint64 {v : Value} {n : UInt64} (hv : ms.lookup "shareDiff" = some v)
    (hn : v.getUint64 = some n) : shareDiff ms = .finite n.toNat := by
  cases v with
  | int i =>
    have hrange : 0 ≤ i ∧ i < 2 ^ 64 := by
      by_contra hnot
      have hnone : Value.getUint64 (.int i) = none := if_neg (by simpa using hnot)
      rw [hnone] at hn
      cases hn
    have hvalue : Value.getUint64 (.int i) = some (UInt64.ofNat i.toNat) :=
      if_pos (by simpa using hrange)
    rw [hvalue] at hn
    cases hn
    have hi : ((UInt64.ofNat i.toNat).toNat : Int) = i := by
      rw [UInt64.toNat_ofNat']
      omega
    have hcast : (((UInt64.ofNat i.toNat).toNat : Int) : Rat) = (i : Rat) := congrArg _ hi
    simp only [shareDiff, hv]
    rw [if_pos hrange, ← hcast]
    rfl
  | _ => cases hn

/-- The chain of type tests after the fields of an instance. -/
def readShareDiff (config : Double → CInstanceConfig) : Load CInstanceConfig := do
  let has ← liftM (some (ms.lookup "shareDiff").isSome)
  if has = true then do
    let v ← liftM ((Value.object ms).member "shareDiff")
    if v.isUint64 = true then do
      let n ← liftM v.getUint64
      pure (config (.finite n.toNat))
    else if v.isDouble = true then do
      let d ← liftM v.getDouble
      pure (config d)
    else
      pure (config (.finite 0))
  else
    pure (config (.finite 0))

theorem readShareDiff_eq (config : Double → CInstanceConfig) :
    readShareDiff ms config = pure (config (shareDiff ms)) := by
  rw [readShareDiff, lift_some_bind, Value.member_object]
  cases hv : ms.lookup "shareDiff" with
  | none =>
    have hzero : shareDiff ms = .finite 0 := by simp only [shareDiff, hv]
    rw [hzero]
    rfl
  | some v =>
    simp only [Option.isSome_some, if_true, lift_some_bind]
    by_cases hint : v.isUint64 = true
    · rw [if_pos hint]
      have hget : v.getUint64.isSome = true := (Getter.uint64.admits v).symm.trans hint
      obtain ⟨n, hn⟩ := Option.isSome_iff_exists.mp hget
      rw [hn, lift_some_bind, shareDiff_uint64 ms hv hn]
    · rw [if_neg hint]
      cases v with
      | double d =>
        have hvalue : shareDiff ms = d := by simp only [shareDiff, hv]
        rw [hvalue]
        rfl
      | int i =>
        have hvalue : shareDiff ms = .finite 0 := by
          simp only [shareDiff, hv]
          exact if_neg (by simpa [Value.isUint64] using hint)
        rw [hvalue]
        rfl
      | _ =>
        have hvalue : shareDiff ms = .finite 0 := by simp only [shareDiff, hv]
        rw [hvalue]
        rfl

theorem loads_shareDiff (config : Double → CInstanceConfig) :
    Loads (readShareDiff ms config) True (some (config (shareDiff ms))) := by
  rw [readShareDiff_eq]
  exact loads_pure _

theorem loads_instance :
    Loads (CInstanceConfig.load {} (.object ms)) True (instanceMembers Getter.string ms) := by
  unfold CInstanceConfig.load instanceMembers
  refine loads_then (loads_required _ _ _ _ _ _) fun name => ?_
  refine loads_then (loads_required _ _ _ _ _ _) fun type => ?_
  refine loads_then (loads_required _ _ _ _ _ _) fun protocol => ?_
  refine loads_then (loads_stringArray _ _ _) fun backends => ?_
  refine loads_then (loads_optional _ _ _ _ _ _ _) fun port => ?_
  by_cases hstratum : protocol = "stratum"
  · simp only [hstratum, if_true, Value.hasMember_object]
    exact loads_shareDiff ms fun d =>
      { name, type, protocol := "stratum", backends, port, stratumShareDiff := d,
        instanceConfig := .object ms }
  · simp only [hstratum, if_false]
    exact loads_pure _

end Sections

/-- An element is read as an object or not at all: without an error the first field aborts, and
with one no member is asked for. -/
theorem loads_element {α : Type} {fresh : α} (kept : α) {load : α → Value → Load α}
    {f : Members → Option α} {value : Value}
    (hobject : ∀ ms, Loads (load fresh (.object ms)) True (f ms))
    (hinert : value.isObject = false → Inert (load fresh value) kept)
    (haborts : value.isObject = false → ∀ acc, acc.error = .ok → load fresh value acc = none) :
    Loads (load fresh value) (value.isObject = true) (ofObject f value) := by
  cases hvalue : value.isObject with
  | true =>
    cases value with
    | object ms => exact loads_congr (hobject ms) (by simp) rfl
    | _ => cases hvalue
  | false =>
    exact ⟨fun acc h => ⟨kept, acc, hinert hvalue acc h, h⟩, fun h => absurd h (by simp),
      fun _ acc h => haborts hvalue acc h⟩

theorem loads_nodeElement (path : String) (value : Value) :
    Loads (CNodeConfig.load path {} value) (value.isObject = true)
      (ofObject (nodeMembers Getter.string) value) := by
  refine loads_element {} (fun ms => loads_node ms path) (fun _ => ?_) fun hvalue acc h => ?_
  · unfold CNodeConfig.load
    refine inert_bind (inert_required _ _ _ _ _ _) ?_
    refine inert_bind (inert_required _ _ _ _ _ _) ?_
    refine inert_bind (inert_optional _ _ _ _ _ _ _) ?_
    refine inert_bind (inert_optional _ _ _ _ _ _ _) ?_
    refine inert_bind (inert_optional _ _ _ _ _ _ _) ?_
    refine inert_bind (inert_optional _ _ _ _ _ _ _) ?_
    exact inert_pure _
  · exact bind_aborts (loadRequired_aborts _ _ hvalue _ _ _ h)

theorem loads_feeElement (path : String) (value : Value) :
    Loads (CFeeConfig.load path {} value) (value.isObject = true)
      (ofObject (feeMembers Getter.string) value) := by
  refine loads_element {} (fun ms => loads_fee ms path) (fun _ => ?_) fun hvalue acc h => ?_
  · unfold CFeeConfig.load
    refine inert_bind (inert_required _ _ _ _ _ _) ?_
    refine inert_bind (inert_required _ _ _ _ _ _) ?_
    exact inert_pure _
  · exact bind_aborts (loadRequired_aborts _ _ hvalue _ _ _ h)

theorem loads_miningAddressElement (localPath : String) (value : Value) :
    Loads (CMiningAddressConfig.load localPath {} value) (value.isObject = true)
      (ofObject (miningAddressMembers Getter.string) value) := by
  refine loads_element {} (fun ms => loads_miningAddress ms localPath) (fun _ => ?_)
    fun hvalue acc h => ?_
  · unfold CMiningAddressConfig.load
    refine inert_bind (inert_required _ _ _ _ _ _) ?_
    refine inert_bind (inert_optional _ _ _ _ _ _ _) ?_
    refine inert_bind (inert_required _ _ _ _ _ _) ?_
    exact inert_pure _
  · exact bind_aborts (loadRequired_aborts _ _ hvalue _ _ _ h)

/-- An instance keeps the element; its share difficulty is asked for only under a protocol, and
a fresh record has none. -/
theorem loads_instanceElement (value : Value) :
    Loads (CInstanceConfig.load {} value) (value.isObject = true)
      (ofObject (instanceMembers Getter.string) value) := by
  refine loads_element { instanceConfig := value } loads_instance (fun _ => ?_)
    fun hvalue acc h => ?_
  · unfold CInstanceConfig.load
    refine inert_bind (inert_required _ _ _ _ _ _) ?_
    refine inert_bind (inert_required _ _ _ _ _ _) ?_
    refine inert_bind (inert_required _ _ _ _ _ _) ?_
    refine inert_bind (inert_stringArray _ _ _ _) ?_
    refine inert_bind (inert_optional _ _ _ _ _ _ _) ?_
    exact inert_pure _
  · exact bind_aborts (loadRequired_aborts _ _ hvalue _ _ _ h)

end ConfigOutcome
