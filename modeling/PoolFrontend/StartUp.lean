import PoolFrontend.ConfigSections
import PoolFrontend.NumericSettings

/-!
# Start-up

A start ends when the pool is set up or an error is logged. It ends for exactly the documents
whose structure the load takes for granted, as long as the mail server can be looked up.
-/
namespace StartUp

open Json Config Poolcore MainSetup ConfigSections

/-- The set-up is complete, or an error was returned. -/
def Ends {α : Type} (p : Setup α) : Prop := (∃ x, p = pure x) ∨ ∃ message, p = throw message

section Rules

variable {α β : Type}

theorem ends_pure (x : α) : Ends (pure x : Setup α) := .inl ⟨x, rfl⟩

theorem ends_throw (message : String) : Ends (throw message : Setup α) := .inr ⟨message, rfl⟩

/-- A part and the next one end where the first does and where the second does after it. -/
theorem ends_bind {p : Setup α} {q : α → Setup β} (hp : Ends p) (hq : ∀ x, Ends (q x)) :
    Ends (p >>= q) := by
  cases hp with
  | inl h =>
    obtain ⟨x, rfl⟩ := h
    exact hq x
  | inr h =>
    obtain ⟨message, rfl⟩ := h
    exact ends_throw message

theorem ends_ite {c : Prop} [Decidable c] {p q : Setup α} (hp : c → Ends p) (hq : ¬c → Ends q) :
    Ends (if c then p else q) := by
  by_cases h : c
  · rw [if_pos h]
    exact hp h
  · rw [if_neg h]
    exact hq h

theorem ends_mapM {f : α → Setup β} (h : ∀ x, Ends (f x)) (xs : List α) : Ends (xs.mapM f) := by
  induction xs with
  | nil => exact ends_pure []
  | cons x rest ih =>
    rw [List.mapM_cons]
    exact ends_bind (h x) fun y => ends_bind ih fun ys => ends_pure _

theorem not_ends_none : ¬ Ends (none : Setup α) := by
  intro h
  cases h with
  | inl h =>
    obtain ⟨x, hx⟩ := h
    cases hx
  | inr h =>
    obtain ⟨message, hmessage⟩ := h
    cases hmessage

/-- A step that does not end keeps the rest from ending. -/
theorem ends_first {p : Setup α} {q : α → Setup β} (h : Ends (p >>= q)) : Ends p := by
  cases p with
  | none => exact absurd h not_ends_none
  | some outcome =>
    cases outcome with
    | ok x => exact ends_pure x
    | error message => exact ends_throw message

end Rules

section Parts

variable (env : Environment)

theorem ends_lookupCoin (coin : CCoinConfig) : Ends (lookupCoin env coin) := by
  unfold lookupCoin
  refine ends_ite (fun _ => ?_) fun _ => ends_pure _
  exact ends_bind (ends_throw _) fun _ => ends_pure _

theorem ends_backendParameters (isMaster : Bool) (databasePath poolName : String)
    (coinConfig : CCoinConfig) (coinInfo : CoinInfo) :
    Ends (backendParameters env isMaster databasePath poolName coinConfig coinInfo) := by
  unfold backendParameters
  split
  · split
    · refine ends_ite (fun _ => ends_throw _) fun _ => ?_
      split
      · exact ends_throw _
      · exact ends_pure _
    · exact ends_throw _
  · exact ends_throw _

theorem ends_createClient (totalThreadsNum : UInt32) (config : PoolBackendConfig)
    (node : CNodeConfig) : Ends (createClient totalThreadsNum config node) := by
  unfold createClient
  exact ends_ite (fun _ => ends_pure _) fun _ =>
    ends_ite (fun _ => ends_pure _) fun _ => ends_throw _

theorem ends_algoServer (coinInfo : CoinInfo) (servers : AlgoServers) :
    Ends (algoServer env coinInfo servers) := by
  unfold algoServer
  split
  · exact ends_pure _
  · refine ends_ite (fun _ => ?_) fun _ => ends_pure _
    exact ends_bind (ends_throw _) fun _ => ends_pure _

theorem ends_initBackends (isMaster : Bool) (databasePath poolName : String)
    (totalThreadsNum : UInt32) (coins : List (CCoinConfig × CoinInfo)) (servers : AlgoServers) :
    Ends (initBackends env isMaster databasePath poolName totalThreadsNum coins servers) := by
  induction coins generalizing servers with
  | nil => exact ends_pure _
  | cons coin rest ih =>
    obtain ⟨coinConfig, coinInfo⟩ := coin
    refine ends_bind ?_ fun backend => ends_bind (ih backend.2) fun backends => ends_pure _
    refine ends_bind (ends_backendParameters env _ _ _ _ _) fun config => ?_
    refine ends_bind (ends_mapM (ends_createClient _ config) _) fun getWorkClients => ?_
    refine ends_bind (ends_mapM (ends_createClient _ config) _) fun rpcClients => ?_
    exact ends_bind (ends_algoServer env coinInfo servers) fun server => ends_pure _

theorem ends_initCore (config : CPoolFrontendConfig) : Ends (initCore env config) := by
  refine ends_bind (ends_mapM (ends_lookupCoin env) _) fun coinList => ?_
  exact ends_bind (ends_initBackends env _ _ _ _ _ _) fun backends => ends_pure _

theorem ends_linkBackend (backends : List PoolBackend) (instanceName linkedCoinName : String) :
    Ends (linkBackend backends instanceName linkedCoinName) := by
  unfold linkBackend
  split
  · exact ends_pure _
  · exact ends_throw _

theorem ends_attachBackends (instanceName : String) (linked : List PoolBackend) (algo : String)
    (server : Option Nat) : Ends (attachBackends instanceName linked algo server) := by
  induction linked generalizing algo server with
  | nil => exact ends_pure _
  | cons backend rest ih =>
    unfold attachBackends
    refine ends_ite (fun _ => ?_) fun _ => ih _ _
    exact ends_bind (ends_throw _) fun _ => ih _ _

theorem ends_initInstance (backends : List PoolBackend) (instIdxE : Nat)
    (instanceConfig : CInstanceConfig) (instIdx : Nat) :
    Ends (initInstance env backends instIdxE instanceConfig instIdx) := by
  refine ends_bind (ends_mapM (ends_linkBackend backends _) _) fun linkedBackends => ?_
  have hattach := ends_bind (ends_attachBackends instanceConfig.name linkedBackends "" none)
    fun server => ends_pure (PoolInstance.mk linkedBackends server)
  refine ends_ite (fun _ => ?_) fun _ => hattach
  exact ends_bind (ends_throw _) fun _ => hattach

/-- The host of the mail server is found, and with an address its port fits an `int`. -/
def MailSafe (config : CPoolFrontendConfig) : Prop :=
  config.smtpEnabled = true → ∀ colon port,
    config.smtpServer.toList.dropWhile (· ≠ ':') = colon :: port →
    ∃ host, env.gethostbyname (String.ofList (config.smtpServer.toList.takeWhile (· ≠ ':'))) =
      some host ∧ (host.getD 0 ≠ 0 → (atoi port).isSome = true)

/-- The lookup and the number after a colon. -/
def mailAddress (name : String) (port : List Char) : Setup HostAddress := do
  let host ← liftM (env.gethostbyname name)
  let addr := host.getD 0
  if addr = 0 then
    throw ("Cannot retrieve address of " ++ name ++ " (gethostbyname returns 0)")
  let number ← liftM (atoi port)
  return { ipv4 := addr.toUInt32, port := htons (UInt16.ofInt number) }

/-- Only the port behind a colon is read as a number. -/
theorem smtpAddress_colon {smtpServer : String} {colon : Char} {port : List Char}
    (h : smtpServer.toList.dropWhile (· ≠ ':') = colon :: port) :
    smtpAddress env smtpServer =
      mailAddress env (String.ofList (smtpServer.toList.takeWhile (· ≠ ':'))) port := by
  unfold smtpAddress
  rw [h]
  rfl

theorem ends_mailAddress_iff (name : String) (port : List Char) :
    Ends (mailAddress env name port) ↔ ∃ host, env.gethostbyname name = some host ∧
      (host.getD 0 ≠ 0 → (atoi port).isSome = true) := by
  unfold mailAddress
  cases hhost : env.gethostbyname name with
  | none =>
    refine iff_of_false (fun h => not_ends_none (ends_first h)) ?_
    rintro ⟨host, hnone, -⟩
    cases hnone
  | some host =>
    have hsome : (∃ other, some host = some other ∧
        (other.getD 0 ≠ 0 → (atoi port).isSome = true)) ↔
        (host.getD 0 ≠ 0 → (atoi port).isSome = true) := by simp
    rw [hsome]
    show Ends (if host.getD 0 = 0 then _ else _) ↔ _
    by_cases haddr : host.getD 0 = 0
    · rw [if_pos haddr]
      exact iff_of_true (.inr ⟨_, rfl⟩) fun hne => absurd haddr hne
    · rw [if_neg haddr]
      cases hnumber : atoi port with
      | none =>
        refine iff_of_false (fun h => not_ends_none (ends_first h)) fun h => ?_
        have hsome := h haddr
        cases hsome
      | some number => exact iff_of_true (ends_pure _) fun _ => rfl

theorem ends_enableSmtp_iff (config : CPoolFrontendConfig) :
    Ends (enableSmtp env config) ↔ MailSafe env config := by
  unfold enableSmtp MailSafe
  cases henabled : config.smtpEnabled with
  | false => exact iff_of_true (ends_pure none) fun hnot => absurd hnot (by simp)
  | true =>
    have hmap : Ends (some <$> smtpAddress env config.smtpServer) ↔
        Ends (smtpAddress env config.smtpServer) := by
      rw [map_eq_pure_bind]
      exact ⟨ends_first, fun h => ends_bind h fun address => ends_pure (some address)⟩
    rw [if_pos rfl, hmap]
    cases hport : config.smtpServer.toList.dropWhile (· ≠ ':') with
    | nil =>
      apply iff_of_true
      · unfold smtpAddress
        rw [hport]
        exact ends_throw _
      · intro _ colon port hcons
        cases hcons
    | cons colon port =>
      rw [smtpAddress_colon env hport, ends_mailAddress_iff]
      constructor
      · intro h _ other rest hcons
        cases hcons
        exact h
      · intro h
        exact h rfl colon port rfl

theorem ends_setUp_iff (config : CPoolFrontendConfig) :
    Ends (setUp env config) ↔ MailSafe env config := by
  rw [← ends_enableSmtp_iff]
  constructor
  · exact ends_first
  · intro h
    refine ends_bind h fun smtpAddress => ends_bind (ends_initCore env config) fun core => ?_
    exact ends_bind (ends_mapM (fun _ => ends_initInstance env _ _ _ _) _) fun _ => ends_pure _

/-- The structure the load takes for granted is there, and the mail server of a configuration
that is accepted can be looked up. -/
def StartUpSafe (document : Value) : Prop :=
  DocumentSafe document ∧
    ∀ config, ofObject (configMembers Getter.string) document = some config → MailSafe env config

/-- An end is a pool or an error: no undefined operation is met. -/
theorem start_ends_iff (config : CPoolFrontendConfig) (document : Value) :
    Ends (main env (declared config) document) ↔ StartUpSafe env document := by
  unfold main StartUpSafe
  by_cases hsafe : DocumentSafe document
  · obtain ⟨accepted, loaded, error, hrun, hend⟩ := load_ends config hsafe ""
    rw [hrun]
    cases hend with
    | inl hend =>
      obtain ⟨rfl, hconfig⟩ := hend
      have hsetUp : Ends (setUp env loaded) ↔ MailSafe env loaded := ends_setUp_iff env loaded
      refine hsetUp.trans ⟨fun h => ⟨hsafe, fun other hother => ?_⟩, fun h => h.2 loaded hconfig⟩
      rw [hconfig] at hother
      cases hother
      exact h
    | inr hend =>
      obtain ⟨rfl, hnone⟩ := hend
      refine iff_of_true (ends_throw error) ⟨hsafe, fun other hother => ?_⟩
      rw [hnone] at hother
      cases hother
  · rw [load_aborts config hsafe ""]
    exact iff_of_false not_ends_none fun h => hsafe h.1

end Parts

/-- A document that is an array: the first access aborts. -/
theorem array_document_aborts :
    ¬ ∀ (env : Environment) (config : CPoolFrontendConfig) (document : Value),
      Ends (main env (declared config) document) := by
  intro hclaim
  exact not_ends_none (hclaim NumericSettings.sampleEnvironment {} (.array []))

end StartUp
