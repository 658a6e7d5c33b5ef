import PoolFrontend.DocumentShape
import PoolFrontend.NumericSettings

/-!
# What the start looks at in a configuration

The order of the members, repeated members and members the program does not know play no part in
the load, in its errors or in the pool. An instance is the exception: it keeps its object.
-/
namespace ConfigShapes

open DocumentShape Json Config MainSetup

/-- The members that each loader reads, by their names and types. -/
def nodeShape : Shape :=
  .object (wholes ["type", "address", "login", "password", "wallet", "longPollEnabled"])

def feeShape : Shape := .object (wholes ["address", "percentage"])

def miningAddressShape : Shape := .object (wholes ["address", "privateKey", "weight"])

def coinNames : List String :=
  ["name", "requiredConfirmations", "defaultPayoutThreshold", "minimalAllowedPayout",
    "keepRoundTime", "keepStatsTime", "confirmationsCheckInterval", "payoutInterval",
    "balanceCheckInterval", "statisticCheckInterval", "shareTarget", "stratumWorkLifeTime",
    "coinbaseMsg", "profitSwitchCoeff", "pool_zaddr", "pool_taddr"]

def coinFields : List (String × Shape) :=
  [("getWorkNodes", .array nodeShape), ("RPCNodes", .array nodeShape), ("fees", .array feeShape),
    ("miningAddresses", .array miningAddressShape)] ++ wholes coinNames

def frontendNames : List String :=
  ["isMaster", "httpPort", "workerThreadsNum", "httpThreadsNum", "adminPasswordHash",
    "observerPasswordHash", "dbPath", "poolName", "poolHostProtocol", "poolHostAddress",
    "poolActivateLinkPrefix", "poolChangePasswordLinkPrefix", "poolActivate2faLinkPrefix",
    "poolDeactivate2faLinkPrefix", "smtpEnabled", "smtpServer", "smtpLogin", "smtpPassword",
    "smtpSenderAddress", "smtpUseSmtps", "smtpUseStartTLS"]

def documentFields : List (String × Shape) :=
  [("poolfrontend", .object (wholes frontendNames)), ("coins", .array (.object coinFields)),
    ("instances", .array .whole)]

/-- The shapes of the object and of both lists; an instance is compared as it stands. -/
def documentShape : Shape := .object documentFields

section Helpers

variable {fields : List (String × Shape)} {v w : Value} {name : String} {shape : Shape} {α : Type}

/-- A member of the same name and value is loaded alike. -/
theorem loadRequired_agree (h : Agree (.object fields) v w) (hmem : (name, .whole) ∈ fields)
    (g : Getter α) (requiredType : String) (out : α) (place : String) :
    loadRequired g requiredType v name out place =
      loadRequired g requiredType w name out place := by
  simp only [loadRequired, h.hasMember hmem, h.member_whole hmem]

theorem loadOptional_agree (h : Agree (.object fields) v w) (hmem : (name, .whole) ∈ fields)
    (g : Getter α) (requiredType : String) (out default : α) (place : String) :
    loadOptional g requiredType v name out default place =
      loadOptional g requiredType w name out default place := by
  simp only [loadOptional, h.hasMember hmem, h.member_whole hmem]

/-- A list is required of both, and what follows sees elements that agree. -/
theorem requireArray_agree (h : Agree (.object fields) v w) (hmem : (name, .array shape) ∈ fields)
    {localPath : String} {k l : Option (List Value) → Load α} (hnone : k none = l none)
    (hsome : ∀ xs ys, List.Forall₂ (Agree shape) xs ys → k (some xs) = l (some ys)) :
    requireArray v localPath name >>= k = requireArray w localPath name >>= l := by
  have herror : ∀ error,
      (setErrorDescription error localPath name "array of objects" >>= fun _ => k none) =
        setErrorDescription error localPath name "array of objects" >>= fun _ => l none := by
    intro error
    rw [hnone]
  have hself : ∀ xs : List Value, k (some xs) = l (some xs) := fun xs =>
    hsome xs xs (List.forall₂_same.mpr fun x _ => .same shape x)
  unfold requireArray
  rw [h.hasMember hmem]
  cases w.hasMember name with
  | none => rfl
  | some present =>
    cases present with
    | false => exact herror .notExists
    | true =>
      obtain ⟨hv, hw⟩ | ⟨x, y, hv, hw, hagree⟩ := h.member hmem
      · rw [hv, hw]
        rfl
      · rw [hv, hw]
        obtain rfl | ⟨xs, ys, rfl, rfl, hall⟩ := hagree.elements
        · cases x with
          | array xs => exact hself xs
          | _ => exact herror .typeMismatch
        · exact hsome xs ys hall

/-- The elements are loaded one by one into the records that are there. -/
theorem loadEach_agree {fresh : α} {load : α → Value → Load α}
    (hload : ∀ self x y, Agree shape x y → load self x = load self y) {xs ys : List Value}
    (h : List.Forall₂ (Agree shape) xs ys) (olds : List α) :
    loadEach fresh load olds xs = loadEach fresh load olds ys := by
  induction h generalizing olds with
  | nil => cases olds <;> rfl
  | cons hfirst _ ih =>
    cases olds with
    | nil => simp only [loadEach, hload _ _ _ hfirst, ih]
    | cons old olds => simp only [loadEach, hload _ _ _ hfirst, ih]

end Helpers

section Sections

variable {v w : Value}

/-- Each loader sees its own shape only. -/
theorem node_agree (path : String) (self : CNodeConfig) (h : Agree nodeShape v w) :
    CNodeConfig.load path self v = CNodeConfig.load path self w := by
  simp (disch := simp [wholes]) only [CNodeConfig.load, jsonParseString, jsonParseStringOr,
    jsonParseBooleanOr, loadRequired_agree h, loadOptional_agree h]

theorem fee_agree (path : String) (self : CFeeConfig) (h : Agree feeShape v w) :
    CFeeConfig.load path self v = CFeeConfig.load path self w := by
  simp (disch := simp [wholes]) only [CFeeConfig.load, jsonParseString, jsonParseDouble,
    loadRequired_agree h]

theorem miningAddress_agree (localPath : String) (self : CMiningAddressConfig)
    (h : Agree miningAddressShape v w) :
    CMiningAddressConfig.load localPath self v = CMiningAddressConfig.load localPath self w := by
  simp (disch := simp [wholes]) only [CMiningAddressConfig.load, jsonParseString,
    jsonParseStringOr, jsonParseUInt, loadRequired_agree h, loadOptional_agree h]

theorem frontend_agree (self : CPoolFrontendConfig)
    (h : Agree (.object (wholes frontendNames)) v w) :
    self.loadFrontend v = self.loadFrontend w := by
  simp (disch := simp [wholes, frontendNames]) only [CPoolFrontendConfig.loadFrontend,
    jsonParseBoolean, jsonParseBooleanOr, jsonParseUInt, jsonParseUIntOr, jsonParseString,
    jsonParseStringOr, loadRequired_agree h, loadOptional_agree h]

theorem coin_agree (self : CCoinConfig) (h : Agree (.object coinFields) v w) :
    CCoinConfig.load self v = CCoinConfig.load self w := by
  have hgetWorkNodes : ("getWorkNodes", (nodeShape.array)) ∈ coinFields := by simp [coinFields]
  have hrpcNodes : ("RPCNodes", (nodeShape.array)) ∈ coinFields := by simp [coinFields]
  have hfees : ("fees", (feeShape.array)) ∈ coinFields := by simp [coinFields]
  have haddresses : ("miningAddresses", (miningAddressShape.array)) ∈ coinFields := by
    simp [coinFields]
  simp (disch := simp [coinFields, wholes, coinNames]) only [CCoinConfig.load,
    jsonParseString, jsonParseStringOr, jsonParseUInt, jsonParseUIntOr, jsonParseDoubleOr,
    loadRequired_agree h, loadOptional_agree h,
    h.memberIs haddresses fun x y hagree => hagree.isArray]
  apply bind_congr
  intro name
  apply requireArray_agree h hgetWorkNodes
  · rfl
  intro getWorkNodes getWorkNodes' hnodes
  apply requireArray_agree h hrpcNodes
  · rfl
  intro rpcNodes rpcNodes' hrpc
  simp only [loadEach_agree (fun self x y => node_agree _ self) hnodes,
    loadEach_agree (fun self x y => node_agree _ self) hrpc]
  apply bind_congr
  intro loadedGetWorkNodes
  apply bind_congr
  intro loadedRpcNodes
  apply requireArray_agree h hfees
  · rfl
  intro fees fees' hfee
  simp only [loadEach_agree (fun self x y => fee_agree _ self) hfee]
  -- the numbers and thresholds are the same by now, up to the list of addresses
  repeat
    apply bind_congr
    intro _
  split
  · rfl
  · apply h.member_array haddresses
    intro xs ys hall
    simp only [loadEach_agree (fun self x y => miningAddress_agree _ self) hall]

theorem sections_agree (self : CPoolFrontendConfig) (h : Agree documentShape v w) :
    self.loadSections v = self.loadSections w := by
  have hfrontend : ("poolfrontend", Shape.object (wholes frontendNames)) ∈ documentFields := by
    simp [documentFields]
  have hcoins : ("coins", Shape.array (.object coinFields)) ∈ documentFields := by
    simp [documentFields]
  have hinstances : ("instances", Shape.array .whole) ∈ documentFields := by simp [documentFields]
  unfold CPoolFrontendConfig.loadSections
  rw [h.hasMember hfrontend]
  apply bind_congr
  intro present
  cases present with
  | false => simp only [Bool.not_false, if_true]
  | true =>
    apply h.member_bind hfrontend
    intro x y hkind
    rw [hkind.isObject]
    cases y.isObject with
    | false => simp only [Bool.not_false, if_true]
    | true =>
      apply h.member_bind hfrontend
      intro x y hagree
      rw [frontend_agree self hagree]
      apply bind_congr
      intro loaded
      apply requireArray_agree h hcoins
      · rfl
      intro coins coins' hall
      simp only [loadEach_agree (fun self x y => coin_agree self) hall]
      apply bind_congr
      intro loadedCoins
      apply requireArray_agree h hinstances
      · rfl
      intro instances instances' hsame
      have heq : List.Forall₂ Eq instances instances' := hsame.imp fun x y => Agree.whole
      rw [List.forall₂_eq_eq_eq] at heq
      rw [heq]

/-- The load yields the same configuration or the same error. -/
theorem load_agree (self : CPoolFrontendConfig) (h : Agree documentShape v w)
    (errorDescription : String) :
    self.load v errorDescription = self.load w errorDescription := by
  simp only [CPoolFrontendConfig.load, sections_agree self h]

end Sections

/-- Two configurations that agree where the program looks make the same pool, or fail with the
same error. -/
theorem started_alike (env : Environment) (config : CPoolFrontendConfig) {v w : Value}
    (h : Agree documentShape v w) : main env config v = main env config w := by
  simp only [main, load_agree config h]

/-- The members of a configuration the other way round, and one the program does not know. -/
def reordered (ms : Members) : Value := .object (ms.reverse ++ [("comment", .string "test pool")])

theorem reordered_agree {ms : Members} (hnames : (ms.map Prod.fst).Nodup) :
    Agree documentShape (.object ms) (reordered ms) := by
  apply Agree.trans (agree_perm ms.reverse_perm.symm hnames)
  apply agree_more
  intro name shape hmem
  right
  simp only [documentFields, List.mem_cons, Prod.mk.injEq, List.not_mem_nil, or_false] at hmem
  rcases hmem with h | h | h <;> rw [h.1] <;> rfl

theorem started_alike_reordered : ∃ ms, NumericSettings.sampleDocument 7 = .object ms ∧
    main NumericSettings.sampleEnvironment {} (.object ms) =
      main NumericSettings.sampleEnvironment {} (reordered ms) :=
  ⟨_, rfl, started_alike _ _ (reordered_agree (by decide))⟩

end ConfigShapes
