import PoolFrontend.Config

/-!
# What an accepted configuration says

An error that is set stays set, so a load that ends without an error began without
one, and so did each of its steps.
-/
namespace ConfigLoad

open Json Config

/-- A load that ends without an error began without one, and its result satisfies `P`. -/
def Accepts {α : Type} (p : Load α) (P : α → Prop) : Prop :=
  ∀ acc x acc', p acc = some (x, acc') → acc'.error = .ok → acc.error = .ok ∧ P x

section Rules

variable {α β : Type}

theorem accepts_pure {x : α} {P : α → Prop} (h : P x) : Accepts (pure x) P := by
  intro acc y acc' hrun hok
  cases hrun
  exact ⟨hok, h⟩

/-- What is promised of a finding holds of a load that found nothing. -/
theorem accepts_unread {α β : Type} {x : α} {P : β → Prop} {Q : α → Prop} :
    Accepts (pure x) fun y => (∃ z, (none : Option β) = some z ∧ P z) → Q y := by
  apply accepts_pure
  rintro ⟨z, hnone, -⟩
  cases hnone

/-- The second part is met whatever the first yields; only its result may rest on `P`. -/
theorem accepts_bind {p : Load α} {q : α → Load β} {P : α → Prop} {Q : β → Prop}
    (hp : Accepts p P) (hq : ∀ x, Accepts (q x) fun y => P x → Q y) : Accepts (p >>= q) Q := by
  intro acc y acc' hrun hok
  obtain ⟨⟨x, mid⟩, hfirst, hsecond⟩ := Option.bind_eq_some_iff.mp hrun
  obtain ⟨hmid, hresult⟩ := hq x mid y acc' hsecond hok
  obtain ⟨hacc, hx⟩ := hp acc x mid hfirst hmid
  exact ⟨hacc, hresult hx⟩

theorem accepts_mono {p : Load α} {P Q : α → Prop} (h : Accepts p P) (hPQ : ∀ x, P x → Q x) :
    Accepts p Q := by
  intro acc x acc' hrun hok
  obtain ⟨hacc, hx⟩ := h acc x acc' hrun hok
  exact ⟨hacc, hPQ x hx⟩

theorem accepts_lift (o : Option α) : Accepts (liftM o : Load α) fun x => o = some x := by
  intro acc x acc' hrun hok
  cases o with
  | none => cases hrun
  | some y =>
    cases hrun
    exact ⟨hok, rfl⟩

theorem accepts_get : Accepts (get : Load LoadError) fun acc => acc.error = .ok := by
  intro acc x acc' hrun hok
  cases hrun
  exact ⟨hok, hok⟩

theorem accepts_error {error : EErrorType} (h : error ≠ .ok) (place name requiredType : String) :
    Accepts (setErrorDescription error place name requiredType) fun _ => False := by
  intro acc x acc' hrun hok
  cases error with
  | ok => exact absurd rfl h
  | notExists =>
    cases hrun
    cases hok
  | typeMismatch =>
    cases hrun
    cases hok

/-- Nothing is promised of a load that sets an error, so it meets any promise. -/
theorem accepts_failure {error : EErrorType} (h : error ≠ .ok)
    (place name requiredType : String) (x : α) (P : α → Prop) :
    Accepts (do setErrorDescription error place name requiredType; return x) P := by
  apply accepts_bind (accepts_error h place name requiredType)
  intro _
  exact accepts_pure fun hfalse => hfalse.elim

theorem accepts_ite {c : Prop} [Decidable c] {p q : Load α} {P : α → Prop}
    (hp : c → Accepts p P) (hq : ¬c → Accepts q P) : Accepts (if c then p else q) P := by
  by_cases h : c
  · rw [if_pos h]
    exact hp h
  · rw [if_neg h]
    exact hq h

end Rules

section Fields

variable {α : Type} (g : Getter α) (requiredType : String)

/-- The field is a member of the type. -/
def Field (value : Value) (name : String) (x : α) : Prop :=
  ∃ field, value.member name = some field ∧ g.get field = some x

theorem accepts_required (value : Value) (name : String) (out : α) (place : String) :
    Accepts (loadRequired g requiredType value name out place) (Field g value name) := by
  unfold loadRequired
  refine accepts_bind accepts_get fun acc => ?_
  refine accepts_ite (fun h => accepts_pure fun hok => absurd hok h) fun _ => ?_
  refine accepts_bind (accepts_lift _) fun has => ?_
  refine accepts_ite (fun _ => ?_) fun _ => ?_
  · refine accepts_bind (accepts_lift _) fun field => ?_
    refine accepts_ite (fun _ => ?_) fun _ => ?_
    · exact accepts_mono (accepts_lift _) fun x hx hfield _ _ => ⟨field, hfield, hx⟩
    · exact accepts_failure (by decide) _ _ _ _ _
  · exact accepts_failure (by decide) _ _ _ _ _

theorem accepts_optional (value : Value) (name : String) (out default : α) (place : String) :
    Accepts (loadOptional g requiredType value name out default place) fun x =>
      Field g value name x ∨ value.hasMember name = some false ∧ x = default := by
  unfold loadOptional
  refine accepts_bind accepts_get fun acc => ?_
  refine accepts_ite (fun h => accepts_pure fun hok => absurd hok h) fun _ => ?_
  refine accepts_bind (accepts_lift _) fun has => ?_
  refine accepts_ite (fun _ => ?_) fun hnot => ?_
  · refine accepts_bind (accepts_lift _) fun field => ?_
    refine accepts_ite (fun _ => ?_) fun _ => ?_
    · exact accepts_mono (accepts_lift _) fun x hx hfield _ _ => .inl ⟨field, hfield, hx⟩
    · exact accepts_failure (by decide) _ _ _ _ _
  · refine accepts_pure fun hhas _ => .inr ⟨?_, rfl⟩
    rw [hhas]
    simpa using hnot

end Fields

section Arrays

variable {α : Type}

/-- A structural check is passed by an array only. -/
theorem accepts_requireArray (value : Value) (localPath name : String) :
    Accepts (requireArray value localPath name) fun found =>
      ∃ elements, found = some elements ∧ value.member name = some (.array elements) := by
  unfold requireArray
  refine accepts_bind (accepts_lift _) fun has => ?_
  refine accepts_ite (fun _ => accepts_failure (by decide) _ _ _ _ _) fun _ => ?_
  refine accepts_bind (accepts_lift _) fun field => ?_
  refine accepts_ite (fun _ => accepts_failure (by decide) _ _ _ _ _) fun _ => ?_
  refine accepts_bind (accepts_lift _) fun again => ?_
  refine accepts_bind (accepts_lift _) fun elements => ?_
  refine accepts_pure fun helements hagain _ _ => ⟨elements, rfl, ?_⟩
  cases again with
  | array xs =>
    cases helements
    exact hagain
  | _ => cases helements

/-- The loop over an array accepts each element in its place. -/
theorem accepts_loadEach {fresh : α} {load : α → Value → Load α} {P : Value → α → Prop}
    (h : ∀ old element, Accepts (load old element) (P element)) (olds : List α)
    (elements : List Value) :
    Accepts (loadEach fresh load olds elements) fun xs => List.Forall₂ P elements xs := by
  induction elements generalizing olds with
  | nil => exact accepts_pure .nil
  | cons element rest ih =>
    cases olds with
    | nil =>
      refine accepts_bind (h fresh element) fun x => accepts_bind (ih []) fun xs => ?_
      exact accepts_pure fun hxs hx => .cons hx hxs
    | cons old olds =>
      refine accepts_bind (h old element) fun x => accepts_bind (ih olds) fun xs => ?_
      exact accepts_pure fun hxs hx => .cons hx hxs

theorem accepts_appendStrings (name place : String) (elements : List Value) (out : List String) :
    Accepts (appendStrings name place elements out) fun _ => True := by
  induction elements generalizing out with
  | nil => exact accepts_pure trivial
  | cons element rest ih =>
    unfold appendStrings
    refine accepts_ite (fun _ => accepts_failure (by decide) _ _ _ _ _) fun _ => ?_
    exact accepts_bind (accepts_lift _) fun text => accepts_mono (ih _) fun _ _ _ => trivial

theorem accepts_stringArray (value : Value) (name : String) (out : List String)
    (place : String) : Accepts (jsonParseStringArray value name out place) fun _ => True := by
  unfold jsonParseStringArray
  refine accepts_bind accepts_get fun acc => ?_
  refine accepts_ite (fun _ => accepts_pure fun _ => trivial) fun _ => ?_
  refine accepts_bind (accepts_lift _) fun has => ?_
  refine accepts_ite (fun _ => ?_) fun _ => ?_
  · refine accepts_bind (accepts_lift _) fun field => ?_
    refine accepts_ite (fun _ => ?_) fun _ => ?_
    · exact accepts_bind (accepts_lift _) fun elements =>
        accepts_mono (accepts_appendStrings name place elements out) fun _ _ _ _ _ _ => trivial
    · exact accepts_failure (by decide) _ _ _ _ _
  · exact accepts_failure (by decide) _ _ _ _ _

end Arrays

theorem accepts_node (path : String) (self : CNodeConfig) (value : Value) :
    Accepts (CNodeConfig.load path self value) fun _ => True := by
  unfold CNodeConfig.load
  refine accepts_bind (accepts_required _ _ _ _ _ _) fun _ => ?_
  refine accepts_bind (accepts_required _ _ _ _ _ _) fun _ => ?_
  refine accepts_bind (accepts_optional _ _ _ _ _ _ _) fun _ => ?_
  refine accepts_bind (accepts_optional _ _ _ _ _ _ _) fun _ => ?_
  refine accepts_bind (accepts_optional _ _ _ _ _ _ _) fun _ => ?_
  refine accepts_bind (accepts_optional _ _ _ _ _ _ _) fun _ => ?_
  exact accepts_pure fun _ _ _ _ _ _ => trivial

theorem accepts_fee (path : String) (self : CFeeConfig) (value : Value) :
    Accepts (CFeeConfig.load path self value) fun _ => True := by
  unfold CFeeConfig.load
  refine accepts_bind (accepts_required _ _ _ _ _ _) fun _ => ?_
  refine accepts_bind (accepts_required _ _ _ _ _ _) fun _ => ?_
  exact accepts_pure fun _ _ => trivial

theorem accepts_miningAddress (localPath : String) (self : CMiningAddressConfig)
    (value : Value) : Accepts (CMiningAddressConfig.load localPath self value) fun _ => True := by
  unfold CMiningAddressConfig.load
  refine accepts_bind (accepts_required _ _ _ _ _ _) fun _ => ?_
  refine accepts_bind (accepts_optional _ _ _ _ _ _ _) fun _ => ?_
  refine accepts_bind (accepts_required _ _ _ _ _ _) fun _ => ?_
  exact accepts_pure fun _ _ _ => trivial

/-- The numbers of a coin are the members of its section. -/
structure CoinNumbers (value : Value) (config : CCoinConfig) : Prop where
  keepRoundTime : Field Getter.uint value "keepRoundTime" config.keepRoundTime
  keepStatsTime : Field Getter.uint value "keepStatsTime" config.keepStatsTime
  confirmationsCheckInterval :
    Field Getter.uint value "confirmationsCheckInterval" config.confirmationsCheckInterval
  payoutInterval : Field Getter.uint value "payoutInterval" config.payoutInterval
  balanceCheckInterval : Field Getter.uint value "balanceCheckInterval" config.balanceCheckInterval

theorem accepts_coin (self : CCoinConfig) (value : Value) :
    Accepts (CCoinConfig.load self value) (CoinNumbers value) := by
  unfold CCoinConfig.load
  refine accepts_bind (accepts_required _ _ _ _ _ _) fun name => ?_
  refine accepts_bind (accepts_requireArray _ _ _) fun getWorkNodes => ?_
  cases getWorkNodes with
  | none => exact accepts_unread
  | some getWorkNodes =>
  refine accepts_bind (accepts_requireArray _ _ _) fun rpcNodes => ?_
  cases rpcNodes with
  | none => exact accepts_unread
  | some rpcNodes =>
  refine accepts_bind (accepts_loadEach (accepts_node _) _ _) fun _ => ?_
  refine accepts_bind (accepts_loadEach (accepts_node _) _ _) fun _ => ?_
  refine accepts_bind (accepts_requireArray _ _ _) fun fees => ?_
  cases fees with
  | none => exact accepts_unread
  | some fees =>
  refine accepts_bind (accepts_loadEach (accepts_fee _) _ _) fun _ => ?_
  refine accepts_bind (accepts_required _ _ _ _ _ _) fun requiredConfirmations => ?_
  refine accepts_bind (accepts_required _ _ _ _ _ _) fun defaultPayoutThreshold => ?_
  refine accepts_bind (accepts_required _ _ _ _ _ _) fun minimalAllowedPayout => ?_
  refine accepts_bind (accepts_required _ _ _ _ _ _) fun keepRoundTime => ?_
  refine accepts_bind (accepts_required _ _ _ _ _ _) fun keepStatsTime => ?_
  refine accepts_bind (accepts_required _ _ _ _ _ _) fun confirmationsCheckInterval => ?_
  refine accepts_bind (accepts_required _ _ _ _ _ _) fun payoutInterval => ?_
  refine accepts_bind (accepts_required _ _ _ _ _ _) fun balanceCheckInterval => ?_
  refine accepts_bind (accepts_required _ _ _ _ _ _) fun statisticCheckInterval => ?_
  refine accepts_bind (accepts_required _ _ _ _ _ _) fun shareTarget => ?_
  refine accepts_bind (accepts_optional _ _ _ _ _ _ _) fun stratumWorkLifeTime => ?_
  refine accepts_bind (accepts_lift _) fun isArray => ?_
  refine accepts_ite (fun _ => ?_) fun _ => ?_
  · exact accepts_failure (by decide) _ _ _ _ _
  refine accepts_bind (accepts_lift _) fun field => ?_
  refine accepts_bind (accepts_lift _) fun miningAddresses => ?_
  refine accepts_bind (accepts_loadEach (accepts_miningAddress _) _ _) fun _ => ?_
  refine accepts_bind (accepts_optional _ _ _ _ _ _ _) fun coinbaseMsg => ?_
  refine accepts_bind (accepts_optional _ _ _ _ _ _ _) fun profitSwitchCoeff => ?_
  refine accepts_bind (accepts_optional _ _ _ _ _ _ _) fun poolZAddr => ?_
  refine accepts_bind (accepts_optional _ _ _ _ _ _ _) fun poolTAddr => ?_
  refine accepts_pure ?_
  intro _ _ _ _ _ _ _ _ _ _ _ hbalance hpayout hconfirmations hstats hround
  intros
  exact ⟨hround, hstats, hconfirmations, hpayout, hbalance⟩

theorem accepts_instance (self : CInstanceConfig) (value : Value) :
    Accepts (CInstanceConfig.load self value) fun _ => True := by
  unfold CInstanceConfig.load
  refine accepts_bind (accepts_required _ _ _ _ _ _) fun name => ?_
  refine accepts_bind (accepts_required _ _ _ _ _ _) fun type => ?_
  refine accepts_bind (accepts_required _ _ _ _ _ _) fun protocol => ?_
  refine accepts_bind (accepts_stringArray _ _ _ _) fun backends => ?_
  refine accepts_bind (accepts_optional _ _ _ _ _ _ _) fun port => ?_
  refine accepts_ite (fun _ => ?_) fun _ => accepts_pure fun _ _ _ _ _ => trivial
  refine accepts_bind (accepts_lift _) fun has => ?_
  refine accepts_ite (fun _ => ?_) fun _ => accepts_pure fun _ _ _ _ _ _ => trivial
  refine accepts_bind (accepts_lift _) fun shareDiff => ?_
  refine accepts_ite (fun _ => ?_) fun _ => accepts_ite (fun _ => ?_) fun _ => ?_
  · exact accepts_bind (accepts_lift _) fun _ => accepts_pure fun _ _ _ _ _ _ _ _ => trivial
  · exact accepts_bind (accepts_lift _) fun _ => accepts_pure fun _ _ _ _ _ _ _ _ => trivial
  · exact accepts_pure fun _ _ _ _ _ _ _ => trivial

theorem accepts_frontend (self : CPoolFrontendConfig) (object : Value) :
    Accepts (self.loadFrontend object) fun config =>
      Field Getter.uint object "httpPort" config.httpPort := by
  unfold CPoolFrontendConfig.loadFrontend
  refine accepts_bind (accepts_required _ _ _ _ _ _) fun isMaster => ?_
  refine accepts_bind (accepts_required _ _ _ _ _ _) fun httpPort => ?_
  refine accepts_bind (accepts_optional _ _ _ _ _ _ _) fun workerThreadsNum => ?_
  refine accepts_bind (accepts_optional _ _ _ _ _ _ _) fun httpThreadsNum => ?_
  refine accepts_bind (accepts_optional _ _ _ _ _ _ _) fun adminPasswordHash => ?_
  refine accepts_bind (accepts_optional _ _ _ _ _ _ _) fun observerPasswordHash => ?_
  refine accepts_bind (accepts_required _ _ _ _ _ _) fun dbPath => ?_
  refine accepts_bind (accepts_required _ _ _ _ _ _) fun poolName => ?_
  refine accepts_bind (accepts_required _ _ _ _ _ _) fun poolHostProtocol => ?_
  refine accepts_bind (accepts_required _ _ _ _ _ _) fun poolHostAddress => ?_
  refine accepts_bind (accepts_required _ _ _ _ _ _) fun poolActivateLinkPrefix => ?_
  refine accepts_bind (accepts_required _ _ _ _ _ _) fun poolChangePasswordLinkPrefix => ?_
  refine accepts_bind (accepts_required _ _ _ _ _ _) fun poolActivate2faLinkPrefix => ?_
  refine accepts_bind (accepts_required _ _ _ _ _ _) fun poolDeactivate2faLinkPrefix => ?_
  refine accepts_bind (accepts_required _ _ _ _ _ _) fun smtpEnabled => ?_
  refine accepts_bind (accepts_required _ _ _ _ _ _) fun smtpServer => ?_
  refine accepts_bind (accepts_required _ _ _ _ _ _) fun smtpLogin => ?_
  refine accepts_bind (accepts_required _ _ _ _ _ _) fun smtpPassword => ?_
  refine accepts_bind (accepts_required _ _ _ _ _ _) fun smtpSenderAddress => ?_
  refine accepts_bind (accepts_optional _ _ _ _ _ _ _) fun smtpUseSmtps => ?_
  refine accepts_bind (accepts_optional _ _ _ _ _ _ _) fun smtpUseStartTls => ?_
  refine accepts_pure ?_
  intro _ _ _ _ _ _ _ _ _ _ _ _ _ _ _ _ _ _ _ hport _
  exact hport

/-- The numbers of a configuration are those of its document, coin by coin. -/
def Numbers (document : Value) (config : CPoolFrontendConfig) : Prop :=
  ∃ object coins, document.member "poolfrontend" = some object ∧
    Field Getter.uint object "httpPort" config.httpPort ∧
    document.member "coins" = some (.array coins) ∧
    List.Forall₂ CoinNumbers coins config.coins

theorem accepts_sections (self : CPoolFrontendConfig) (document : Value) :
    Accepts (self.loadSections document) fun loaded =>
      loaded.1 = true → Numbers document loaded.2 := by
  unfold CPoolFrontendConfig.loadSections
  refine accepts_bind (accepts_lift _) fun has => ?_
  refine accepts_ite (fun _ => ?_) fun _ => ?_
  · exact accepts_failure (by decide) _ _ _ _ _
  refine accepts_bind (accepts_lift _) fun frontend => ?_
  refine accepts_ite (fun _ => ?_) fun _ => ?_
  · exact accepts_failure (by decide) _ _ _ _ _
  refine accepts_bind (accepts_lift _) fun object => ?_
  refine accepts_bind (accepts_frontend _ _) fun loaded => ?_
  refine accepts_bind (accepts_requireArray _ _ _) fun coins => ?_
  cases coins with
  | none => exact accepts_unread
  | some coins =>
  refine accepts_bind (accepts_loadEach accepts_coin _ _) fun loadedCoins => ?_
  refine accepts_bind (accepts_requireArray _ _ _) fun instances => ?_
  cases instances with
  | none => exact accepts_unread
  | some instances =>
  refine accepts_bind (accepts_loadEach accepts_instance _ _) fun loadedInstances => ?_
  refine accepts_bind accepts_get fun acc => ?_
  refine accepts_pure ?_
  intro _ _ _ hcoins hcoinsField hport hobject _ _ _
  obtain ⟨elements, helements, hcoinsField⟩ := hcoinsField
  cases helements
  exact ⟨object, coins, hobject, hport, hcoinsField, hcoins⟩

/-- A load that reports success ends without an error. -/
def Honest {α : Type} (p : Load (Bool × α)) : Prop :=
  ∀ acc x acc', p acc = some (x, acc') → x.1 = true → acc'.error = .ok

theorem honest_bind {α β : Type} {p : Load α} {q : α → Load (Bool × β)}
    (h : ∀ x, Honest (q x)) : Honest (p >>= q) := by
  intro acc y acc' hrun hy
  obtain ⟨⟨x, mid⟩, -, hsecond⟩ := Option.bind_eq_some_iff.mp hrun
  exact h x mid y acc' hsecond hy

theorem honest_false {α : Type} (x : α) : Honest (pure (false, x)) := by
  intro acc y acc' hrun hy
  cases hrun
  cases hy

theorem honest_sections (self : CPoolFrontendConfig) (document : Value) :
    Honest (self.loadSections document) := by
  unfold CPoolFrontendConfig.loadSections
  refine honest_bind fun has => ?_
  split
  · exact honest_bind fun _ => honest_false _
  refine honest_bind fun frontend => ?_
  split
  · exact honest_bind fun _ => honest_false _
  refine honest_bind fun object => honest_bind fun loaded => honest_bind fun coins => ?_
  split
  · refine honest_bind fun loadedCoins => honest_bind fun instances => ?_
    split
    · refine honest_bind fun loadedInstances => ?_
      intro acc x acc' hrun hx
      cases hrun
      simpa using hx
    · exact honest_false _
  · exact honest_false _

/-- A document that is accepted is loaded with the numbers it has. -/
theorem load_numbers {self config : CPoolFrontendConfig} {document : Value}
    {description description' : String}
    (h : self.load document description = some (true, config, description')) :
    Numbers document config := by
  obtain ⟨⟨⟨result, loaded⟩, acc⟩, hrun, hload⟩ := Option.bind_eq_some_iff.mp h
  cases hload
  have hok := honest_sections self document _ _ _ hrun rfl
  exact (accepts_sections self document _ _ _ hrun hok).2 rfl

end ConfigLoad
