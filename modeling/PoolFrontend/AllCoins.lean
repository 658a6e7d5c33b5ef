import PoolFrontend.OneAnswer
import PoolFrontend.ServerLookup

/-!
# One coin and all coins

Balances and pool statistics are asked for one coin, or for all of them by an empty coin. The
answers for all coins are put beside the backends of the server again, by their position.
-/
namespace AllCoins

open CallbackProgram CallbackRuns CallbackTrace
open Json Poolcore Server RequestFields BackendHandlers ServerLookup
open Config (CPoolFrontendConfig)
open Handler (program)

/-- The list that the only reply has under a name. -/
def listed (name : String) : List Reply → Option (List Value)
  | [.reply200 (.json (.object members))] => (members.lookup name).bind Value.getArray
  | _ => none

/-- The coin an entry is about. -/
def coinOf (entry : Value) : Option String := (entry.member "coin").bind Value.getString

/-- Each backend beside the answer at its place. -/
theorem zipWith_answers {α β : Type} (backends : List PoolBackend) (databaseOf : PoolBackend → α)
    (answer : α → β) (entry : PoolBackend → β → Value) :
    List.zipWith entry backends ((backends.map databaseOf).map answer) =
      backends.map fun backend => entry backend (answer (databaseOf backend)) := by
  rw [List.map_map, List.zipWith_map_right, List.zipWith_self]
  rfl

section Balances

variable {σ : Type} (serve : Environment Http σ) (s mid : σ) (server : PoolHttpServer)
  (ms : Members) (login : String)

def balanceReplies : List Reply :=
  messages (run serve (onBackendQueryUserBalance server (.object ms)).program .handler s).1

/-- The request is well-formed, and its session is validated for a login; what follows finds the
core in a state. -/
def Validated (coin : String) : Prop :=
  ∃ sessionId targetLogin tokenInfo,
    sessionTargetCoinMembers ms = some (sessionId, targetLogin, coin) ∧
    serve s (.validateSession sessionId targetLogin false) = (some tokenInfo, mid) ∧
    tokenInfo.login = login

/-- The balance of a coin, scaled as the coin is. -/
def balanceOf (backend : PoolBackend) : Value :=
  balanceObject server backend.coinInfo
    (serve mid (.queryUserBalance backend.accountingDb login)).1

/-- An entry has the name of its coin, and the texts of the record's amounts, each scaled with the
coin's own multiplier and part size. -/
def Scaled (helpers : Helpers) (coinInfo : CoinInfo) (record : UserBalanceInfo) (entry : Value) :
    Prop :=
  entry = .object [
    ("coin", .string coinInfo.name),
    ("balance", .string (helpers.formatMoney
      (helpers.getRational record.balance coinInfo.extraMultiplier) coinInfo.rationalPartSize)),
    ("requested", .string (helpers.formatMoney record.requested coinInfo.rationalPartSize)),
    ("paid", .string (helpers.formatMoney record.paid coinInfo.rationalPartSize)),
    ("queued", .string (helpers.formatMoney record.queued coinInfo.rationalPartSize))]

/-- The core delivers for many databases what it delivers for each, in their order. -/
def BalancesInOrder : Prop :=
  ∀ s databases login, (serve s (.queryUserBalanceMulti databases login)).1.val =
    databases.map fun database => (serve s (.queryUserBalance database login)).1

variable {serve s mid server ms login}

theorem listed_balances (values : List Value) : listed "balances" [.reply200 (.json (.object
    [("status", .string "ok"), ("balances", .array values)]))] = some values := rfl

theorem coinOf_balance (backend : PoolBackend) :
    coinOf (balanceOf serve mid server login backend) = some (backendName backend) := rfl

/-- What the handler writes for a coin. -/
theorem scaled_balance (backend : PoolBackend) :
    Scaled server.helpers backend.coinInfo
      (serve mid (.queryUserBalance backend.accountingDb login)).1
      (balanceOf serve mid server login backend) := rfl

theorem balance_alone {coin : String} {backend : PoolBackend} (hcoin : coin ≠ "")
    (h : Validated serve s mid ms login coin) (hbackend : server.backend coin = some backend) :
    listed "balances" (balanceReplies serve s server ms) =
      some [balanceOf serve mid server login backend] := by
  obtain ⟨sessionId, targetLogin, tokenInfo, hfields, hsession, rfl⟩ := h
  rw [← listed_balances]
  unfold balanceReplies
  rw [onBackendQueryUserBalance, withFields_sessionTargetCoin, hfields]
  simp [program, accepted, hsession, hcoin, hbackend, messages, balanceOf]

theorem balance_all (hsome : server.backends ≠ []) (hmulti : BalancesInOrder serve)
    (h : Validated serve s mid ms login "") :
    listed "balances" (balanceReplies serve s server ms) =
      some (server.backends.map (balanceOf serve mid server login)) := by
  obtain ⟨sessionId, targetLogin, tokenInfo, hfields, hsession, rfl⟩ := h
  obtain ⟨first, rest, hbackends⟩ := List.exists_cons_of_ne_nil hsome
  have hhead : (server.backends.map PoolBackend.accountingDb).head? = some first.accountingDb := by
    rw [hbackends]
    rfl
  have hentries : List.zipWith (fun (backend : PoolBackend) record =>
      balanceObject server backend.coinInfo record) server.backends
        (serve mid (.queryUserBalanceMulti (server.backends.map PoolBackend.accountingDb)
          tokenInfo.login)).1.val =
      server.backends.map (balanceOf serve mid server tokenInfo.login) := by
    rw [hmulti, zipWith_answers]
    rfl
  rw [← hentries, ← listed_balances]
  unfold balanceReplies
  rw [onBackendQueryUserBalance, withFields_sessionTargetCoin, hfields]
  simp [program, accepted, hsession, hhead, messages]

/-- The reply for all coins has one entry for each backend, with the record of the backend's own
database, and the entry of a backend is the one its coin has alone, for every request of the login
that finds the core in the same state. -/
def BalancesAgree (serve : Environment Http σ) (mid : σ) (server : PoolHttpServer)
    (login : String) (backends : List PoolBackend) (all : List Reply) : Prop :=
  ∃ entries, listed "balances" all = some entries ∧
    (entries.map coinOf).Perm (backends.map fun backend => some (backendName backend)) ∧
    ∀ backend ∈ backends,
      ∃ entry ∈ entries, coinOf entry = some (backendName backend) ∧
        Scaled server.helpers backend.coinInfo
          (serve mid (.queryUserBalance backend.accountingDb login)).1 entry ∧
        (backendName backend ≠ "" → ∀ s ms,
          Validated serve s mid ms login (backendName backend) →
          listed "balances" (balanceReplies serve s server ms) = some [entry])

/-- Asked for all coins, the balances are those of each coin, each once. -/
theorem balances_agree (sorts : Sorts) (helpers : Helpers) (userManager : UserManager)
    (config : CPoolFrontendConfig) {backends : List PoolBackend}
    (algoMetaStatistic : List StatisticServer) (hsome : backends ≠ [])
    (hdistinct : (backends.map backendName).Nodup) (hmulti : BalancesInOrder serve)
    (h : Validated serve s mid ms login "") :
    let server := poolHttpServer sorts helpers userManager config backends algoMetaStatistic
    BalancesAgree serve mid server login backends (balanceReplies serve s server ms) := by
  intro server
  have hperm : server.backends.Perm backends := sorts.backends.perm backends
  have hserver : server.backends ≠ [] := by
    intro hnil
    rw [hnil] at hperm
    exact hsome hperm.nil_eq.symm
  refine ⟨_, balance_all hserver hmulti h, ?_, ?_⟩
  · rw [List.map_map]
    exact hperm.map _
  · intro backend hbackend
    have hfound : server.backend (backendName backend) = some backend :=
      (backend_exact sorts helpers userManager config backends algoMetaStatistic).finds hdistinct
        hbackend
    have hmem : backend ∈ server.backends := hperm.mem_iff.mpr hbackend
    exact ⟨_, List.mem_map_of_mem hmem, coinOf_balance backend, scaled_balance backend,
      fun hnamed _ _ h' => balance_alone hnamed h' hfound⟩

end Balances

def balanceRecord (database : Handle) : UserBalanceInfo := ⟨database, 0, 0, 0⟩

def statsRecord (database : Handle) : CStats := { emptyStats with lastShareTime := database }

/-- A core in which every database has a record of its own, and every session is the same
user's. -/
def ownRecords : Environment Http Unit
  | _, .validateSession .. => (some ⟨"user", false⟩, ())
  | _, .queryUserBalance database _ => (balanceRecord database, ())
  | _, .queryUserBalanceMulti databases _ =>
    (⟨databases.map balanceRecord, List.length_map _⟩, ())
  | _, .queryPoolStats database => (statsRecord database, ())
  | _, .queryPoolStatsMulti databases => (⟨databases.map statsRecord, List.length_map _⟩, ())
  | _, c => (emptyAnswer c, ())

/-- Two coins, not in the order of their names. -/
def twoBackends : List PoolBackend := [namedBackend 1 "BTC", namedBackend 2 "BCH"]

theorem balances_agree_two :
    let emptyManager := emptyServer.userManager
    let server := poolHttpServer insertionSorts emptyServer.helpers emptyManager {} twoBackends []
    BalancesAgree ownRecords () server "user" twoBackends
      (balanceReplies ownRecords () server [("id", .string "session")]) := by
  have hmulti : BalancesInOrder ownRecords := fun _ _ _ => rfl
  have h : Validated ownRecords () () [("id", .string "session")] "user" "" :=
    ⟨"session", "", ⟨"user", false⟩, by decide, rfl, rfl⟩
  exact balances_agree insertionSorts _ _ _ [] (by decide) (by decide) hmulti h

section Statistics

variable {σ : Type} (serve : Environment Http σ) (s : σ) (server : PoolHttpServer) (ms : Members)

def statsReplies : List Reply :=
  messages (run serve (onBackendQueryPoolStats server (.object ms)).program .handler s).1

/-- The one object for a coin and an object for it among those for all coins have the same
members. -/
def StatsAgree (coin : String) (alone all : List Reply) : Prop :=
  ∃ object others, listed "stats" alone = some [object] ∧ listed "stats" all = some others ∧
    ∃ other ∈ others, coinOf other = some coin ∧ ∀ name, other.member name = object.member name

def StatsInOrder : Prop :=
  ∀ s databases, (serve s (.queryPoolStatsMulti databases)).1.val =
    databases.map fun database => (serve s (.queryPoolStats database)).1

variable {serve s server ms}

/-- The object for one coin. -/
def aloneObject (serve : Environment Http σ) (s : σ) (server : PoolHttpServer)
    (statistic : StatisticDb) : Value :=
  let record := (serve s (.queryPoolStats statistic.handle)).1
  .object (poolStatsMembers server statistic.coinInfo record ++
    [("lastShareTime", .int record.lastShareTime)])

theorem stats_alone {coin : String} (hcoin : stringOr ms "coin" "" = some coin)
    (hnamed : coin ≠ "") : listed "stats" (statsReplies serve s server ms) =
      (server.statisticDb coin).map fun statistic => [aloneObject serve s server statistic] := by
  unfold statsReplies
  rw [onBackendQueryPoolStats, withFields_stringOr, hcoin]
  cases hstatistic : server.statisticDb coin with
  | none =>
    simp [program, accepted, hnamed, hstatistic, messages]
    rfl
  | some statistic =>
    simp [program, accepted, hnamed, hstatistic, messages]
    rfl

/-- The objects for all coins. -/
def allObjects (serve : Environment Http σ) (s : σ) (server : PoolHttpServer) : List Value :=
  List.zipWith (fun (backend : PoolBackend) record =>
    .object (poolStatsMembers server backend.coinInfo record)) server.backends
      (serve s (.queryPoolStatsMulti
        (server.backends.map fun backend => backend.statisticDb.handle))).1.val

theorem stats_all (hcoin : stringOr ms "coin" "" = some "") :
    listed "stats" (statsReplies serve s server ms) =
      (server.backends.map fun backend => backend.statisticDb.handle).head?.map fun _ =>
        allObjects serve s server := by
  unfold statsReplies
  rw [onBackendQueryPoolStats, withFields_stringOr, hcoin]
  cases hhead : (server.backends.map fun backend => backend.statisticDb.handle).head? with
  | none =>
    simp [program, accepted, hhead, messages]
    rfl
  | some first =>
    simp [program, accepted, hhead, messages]
    rfl

theorem mem_zipWith {α β γ : Type} {f : α → β → γ} {xs : List α} {ys : List β} {z : γ}
    (h : z ∈ List.zipWith f xs ys) : ∃ x ∈ xs, ∃ y ∈ ys, z = f x y := by
  rw [← List.map_uncurry_zip_eq_zipWith] at h
  obtain ⟨⟨x, y⟩, hmem, rfl⟩ := List.mem_map.mp h
  obtain ⟨hx, hy⟩ := List.of_mem_zip hmem
  exact ⟨x, hx, y, hy, rfl⟩

theorem alone_lastShareTime {coin : String} (hcoin : stringOr ms "coin" "" = some coin)
    (hnamed : coin ≠ "") {object : Value}
    (h : listed "stats" (statsReplies serve s server ms) = some [object]) :
    ∃ lastShareTime, object.member "lastShareTime" = some (.int lastShareTime) := by
  rw [stats_alone hcoin hnamed] at h
  obtain ⟨statistic, _, hobject⟩ := Option.map_eq_some_iff.mp h
  rw [← List.singleton_inj.mp hobject]
  exact ⟨_, rfl⟩

theorem others_lastShareTime (hcoin : stringOr ms "coin" "" = some "") {others : List Value}
    (h : listed "stats" (statsReplies serve s server ms) = some others) :
    ∀ other ∈ others, other.member "lastShareTime" = none := by
  intro other hother
  rw [stats_all hcoin] at h
  obtain ⟨_, _, hobjects⟩ := Option.map_eq_some_iff.mp h
  rw [← hobjects] at hother
  obtain ⟨backend, _, record, _, heq⟩ := mem_zipWith hother
  rw [heq]
  rfl

theorem disagree_of_lastShareTime {coin : String} {alone all : List Reply}
    (halone : ∀ object, listed "stats" alone = some [object] →
      ∃ lastShareTime, object.member "lastShareTime" = some (.int lastShareTime))
    (hall : ∀ others, listed "stats" all = some others →
      ∀ other ∈ others, other.member "lastShareTime" = none) : ¬ StatsAgree coin alone all := by
  rintro ⟨object, others, hobject, hothers, other, hother, -, hmembers⟩
  obtain ⟨lastShareTime, hsome⟩ := halone object hobject
  have hnone := hall others hothers other hother
  have hsame := hmembers "lastShareTime"
  rw [hnone, hsome] at hsame
  cases hsame

/-- The object for one coin has a last share time, and no object for all coins has one. -/
theorem stats_never_agree {serveAll : Environment Http σ} {sAll : σ} {msAll : Members}
    {coin : String} (hcoin : stringOr ms "coin" "" = some coin) (hnamed : coin ≠ "")
    (hall : stringOr msAll "coin" "" = some "") :
    ¬ StatsAgree coin (statsReplies serve s server ms)
      (statsReplies serveAll sAll server msAll) := by
  apply disagree_of_lastShareTime
  · intro object h
    exact alone_lastShareTime hcoin hnamed h
  · intro others h
    exact others_lastShareTime hall h

theorem stats_never_agree_two :
    let server := poolHttpServer insertionSorts emptyServer.helpers emptyServer.userManager {}
      twoBackends []
    ¬ StatsAgree "BTC" (statsReplies ownRecords () server [("coin", .string "BTC")])
      (statsReplies ownRecords () server []) :=
  stats_never_agree (by decide) (by decide) (by decide)

/-- The reply for one coin is there, and so is that for all, and the two objects for the coin
have the same members but for the last share time. -/
theorem stats_agree_otherwise {sorts : Sorts} {helpers : Helpers} {userManager : UserManager}
    {config : CPoolFrontendConfig} {backends : List PoolBackend}
    {algoMetaStatistic : List StatisticServer} {backend : PoolBackend} {msAll : Members}
    (hserver : server = poolHttpServer sorts helpers userManager config backends algoMetaStatistic)
    (hbackend : backend ∈ backends) (hinfo : backend.statisticDb.coinInfo = backend.coinInfo)
    (hdistinct : ((statisticsOf backends algoMetaStatistic).map statisticName).Nodup)
    (hmulti : StatsInOrder serve) (hcoin : stringOr ms "coin" "" = some (backendName backend))
    (hnamed : backendName backend ≠ "") (hall : stringOr msAll "coin" "" = some "") :
    ∃ object others other, listed "stats" (statsReplies serve s server ms) = some [object] ∧
      listed "stats" (statsReplies serve s server msAll) = some others ∧ other ∈ others ∧
      coinOf other = some (backendName backend) ∧
      ∀ name, name ≠ "lastShareTime" → other.member name = object.member name := by
  have hfound : server.statisticDb (backendName backend) = some backend.statisticDb := by
    rw [hserver, backendName, ← hinfo]
    exact (statisticDb_exact sorts helpers userManager config backends algoMetaStatistic).finds
      hdistinct (List.mem_append_left _ (List.mem_map_of_mem hbackend))
  have hmem : backend ∈ server.backends := by
    rw [hserver]
    exact (sorts.backends.perm backends).mem_iff.mpr hbackend
  have hobjects : allObjects serve s server = server.backends.map fun backend =>
      .object (poolStatsMembers server backend.coinInfo
        (serve s (.queryPoolStats backend.statisticDb.handle)).1) := by
    rw [allObjects, hmulti, zipWith_answers]
  obtain ⟨first, hhead⟩ : ∃ first,
      (server.backends.map fun backend => backend.statisticDb.handle).head? = some first := by
    cases hbackends : server.backends with
    | nil => simp [hbackends] at hmem
    | cons first rest => exact ⟨_, rfl⟩
  refine ⟨_, _, _, by rw [stats_alone hcoin hnamed, hfound]; rfl,
    by rw [stats_all hall, hhead, hobjects]; rfl, List.mem_map_of_mem hmem, rfl, ?_⟩
  intro name hname
  rw [aloneObject, hinfo, Value.member_object, Value.member_object, List.lookup_append,
    List.lookup_cons, beq_false_of_ne hname, List.lookup_nil, Option.or_none]

end Statistics

/-- The property fails on a pool of two coins. -/
theorem stats_disagree_two :
    ¬ ∀ (σ : Type) (serve : Environment Http σ) (s : σ) (sorts : Sorts) (helpers : Helpers)
      (userManager : UserManager) (config : CPoolFrontendConfig) (backends : List PoolBackend)
      (algoMetaStatistic : List StatisticServer) (backend : PoolBackend) (ms msAll : Members),
      (backends.map backendName).Nodup → backend ∈ backends → StatsInOrder serve →
      stringOr ms "coin" "" = some (backendName backend) → backendName backend ≠ "" →
      stringOr msAll "coin" "" = some "" →
      let server := poolHttpServer sorts helpers userManager config backends algoMetaStatistic
      StatsAgree (backendName backend) (statsReplies serve s server ms)
        (statsReplies serve s server msAll) := by
  intro h
  have hagree := h Unit ownRecords () insertionSorts emptyServer.helpers emptyServer.userManager {}
    twoBackends [] (namedBackend 1 "BTC") [("coin", .string "BTC")] [] (by decide) (by decide)
    (fun _ _ => rfl) (by decide) (by decide) (by decide)
  have hcoin : stringOr [("coin", .string "BTC")] "coin" "" = some "BTC" := by decide
  have hempty : stringOr [] "coin" "" = some "" := by decide
  exact disagree_of_lastShareTime (fun _ h => alone_lastShareTime hcoin (by decide) h)
    (fun _ h => others_lastShareTime hempty h) hagree

end AllCoins
