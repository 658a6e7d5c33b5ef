import PoolFrontend.SetupWiring

/-!
# The lookups of the server

The constructor sorts the backends and the statistic databases by coin name, and both lookups
search in that order. What they find does not depend on the order of the lists it was given.
-/
namespace ServerLookup

open Poolcore Server SortedSearch
open Config (CPoolFrontendConfig)

/-- `std::sort` by name: elements of one name come in any order. -/
structure SortBy {α : Type} (nameOf : α → String) where
  apply : List α → List α
  perm : ∀ xs, (apply xs).Perm xs
  sorted : ∀ xs, (apply xs).Pairwise fun l r => nameOf l ≤ nameOf r

def insertionSortBy {α : Type} (nameOf : α → String) : SortBy nameOf where
  apply xs := xs.insertionSort fun l r => nameOf l ≤ nameOf r
  perm xs := List.perm_insertionSort _ xs
  sorted xs := by
    have htotal : Std.Total fun l r : α => nameOf l ≤ nameOf r := ⟨fun _ _ => String.le_total _ _⟩
    have htrans : IsTrans α fun l r => nameOf l ≤ nameOf r := ⟨fun _ _ _ => String.le_trans⟩
    exact List.pairwise_insertionSort _ xs

abbrev backendName (backend : PoolBackend) : String := backend.coinInfo.name

abbrev statisticName (statistic : StatisticDb) : String := statistic.coinInfo.name

structure StatisticServer where
  statisticDb : StatisticDb
  deriving DecidableEq, Repr

/-- The two sorts of the constructor. -/
structure Sorts where
  backends : SortBy backendName
  statistics : SortBy statisticName

def insertionSorts : Sorts := ⟨insertionSortBy _, insertionSortBy _⟩

/-- The statistic databases of the backends, then those of the algorithms. -/
def statisticsOf (backends : List PoolBackend) (algoMetaStatistic : List StatisticServer) :
    List StatisticDb :=
  backends.map PoolBackend.statisticDb ++ algoMetaStatistic.map StatisticServer.statisticDb

/-- `PoolHttpServer::PoolHttpServer` -/
def poolHttpServer (sorts : Sorts) (helpers : Helpers) (userManager : UserManager)
    (config : CPoolFrontendConfig) (backends : List PoolBackend)
    (algoMetaStatistic : List StatisticServer) : PoolHttpServer where
  helpers := helpers
  userManager := userManager
  backends := sorts.backends.apply backends
  statistics := sorts.statistics.apply (statisticsOf backends algoMetaStatistic)
  config := config

section Sorted

variable {α : Type} {nameOf : α → String}

/-- A lookup in a list: null exactly for a name no element has, else an element of the name. -/
structure Exact (nameOf : α → String) (xs : List α) (lookup : String → Option α) : Prop where
  null : ∀ name, lookup name = none ↔ ∀ x ∈ xs, nameOf x ≠ name
  found : ∀ name x, lookup name = some x → x ∈ xs ∧ nameOf x = name

theorem findByName_none {xs : List α} (hsorted : xs.Pairwise fun l r => nameOf l ≤ nameOf r)
    (name : String) : findByName nameOf xs name = none ↔ ∀ x ∈ xs, nameOf x ≠ name := by
  rw [findByName_find hsorted, List.find?_eq_none]
  simp only [decide_eq_true_eq, ne_eq]

/-- Whatever order the sort gives to elements of one name, the search is exact. -/
theorem findByName_exact (sort : SortBy nameOf) (xs : List α) :
    Exact nameOf xs (findByName nameOf (sort.apply xs)) where
  null name := by
    rw [findByName_none (sort.sorted xs)]
    constructor
    · intro h x hx
      exact h x ((sort.perm xs).mem_iff.mpr hx)
    · intro h x hx
      exact h x ((sort.perm xs).mem_iff.mp hx)
  found name x h := by
    obtain ⟨hname, hmem⟩ := findByName_name h
    exact ⟨(sort.perm xs).mem_iff.mp hmem, hname⟩

/-- With distinct names an exact lookup finds the element itself. -/
theorem Exact.finds {xs : List α} {lookup : String → Option α} (h : Exact nameOf xs lookup)
    (hdistinct : (xs.map nameOf).Nodup) {x : α} (hx : x ∈ xs) : lookup (nameOf x) = some x := by
  cases hfound : lookup (nameOf x) with
  | none => exact absurd rfl ((h.null _).mp hfound x hx)
  | some y =>
    obtain ⟨hy, hname⟩ := h.found _ y hfound
    rw [List.inj_on_of_nodup_map hdistinct hy hx hname]

/-- Distinct names have one sorted order. -/
theorem sort_unique (first second : SortBy nameOf) {xs ys : List α}
    (hdistinct : (xs.map nameOf).Nodup) (h : xs.Perm ys) :
    first.apply xs = second.apply ys := by
  have hperm : (first.apply xs).Perm (second.apply ys) :=
    ((first.perm xs).trans h).trans (second.perm ys).symm
  apply List.Perm.eq_of_pairwise _ (first.sorted xs) (second.sorted ys) hperm
  intro x y hx hy hxy hyx
  have hx' : x ∈ xs := (first.perm xs).mem_iff.mp hx
  have hy' : y ∈ xs := h.mem_iff.mpr ((second.perm ys).mem_iff.mp hy)
  exact List.inj_on_of_nodup_map hdistinct hx' hy' (String.le_antisymm hxy hyx)

end Sorted

section Server

variable (sorts : Sorts) (helpers : Helpers) (userManager : UserManager)
  (config : CPoolFrontendConfig) (backends : List PoolBackend)
  (algoMetaStatistic : List StatisticServer)

theorem backend_exact : Exact backendName backends
    (poolHttpServer sorts helpers userManager config backends algoMetaStatistic).backend :=
  findByName_exact sorts.backends backends

theorem statisticDb_exact : Exact statisticName (statisticsOf backends algoMetaStatistic)
    (poolHttpServer sorts helpers userManager config backends algoMetaStatistic).statisticDb :=
  findByName_exact sorts.statistics (statisticsOf backends algoMetaStatistic)

variable {backends algoMetaStatistic}

theorem statisticsOf_perm {backends' : List PoolBackend}
    {algoMetaStatistic' : List StatisticServer} (hbackends : backends.Perm backends')
    (halgo : algoMetaStatistic.Perm algoMetaStatistic') :
    (statisticsOf backends algoMetaStatistic).Perm (statisticsOf backends' algoMetaStatistic') :=
  (hbackends.map _).append (halgo.map _)

/-- Two servers built from permuted lists agree wherever the names are distinct. -/
structure SameLookups (backends : List PoolBackend) (statistics : List StatisticDb)
    (server other : PoolHttpServer) : Prop where
  order : (backends.map backendName).Nodup → other.backends = server.backends
  backend : (backends.map backendName).Nodup → ∀ name, other.backend name = server.backend name
  statisticDb : (statistics.map statisticName).Nodup →
    ∀ name, other.statisticDb name = server.statisticDb name

/-- Both lookups are exact in what the constructor was given, and permuted lists with distinct
names give the same server, even when they are sorted in another way. -/
theorem lookups_exact (sorts others : Sorts) (helpers : Helpers) (userManager : UserManager)
    (config : CPoolFrontendConfig) {backends backends' : List PoolBackend}
    {algoMetaStatistic algoMetaStatistic' : List StatisticServer}
    (hbackends : backends.Perm backends')
    (halgo : algoMetaStatistic.Perm algoMetaStatistic') :
    Exact backendName backends
        (poolHttpServer sorts helpers userManager config backends algoMetaStatistic).backend ∧
      Exact statisticName (statisticsOf backends algoMetaStatistic)
        (poolHttpServer sorts helpers userManager config backends algoMetaStatistic).statisticDb ∧
      SameLookups backends (statisticsOf backends algoMetaStatistic)
        (poolHttpServer sorts helpers userManager config backends algoMetaStatistic)
        (poolHttpServer others helpers userManager config backends' algoMetaStatistic') := by
  have hsame (hdistinct : (backends.map backendName).Nodup) :
      others.backends.apply backends' = sorts.backends.apply backends :=
    (sort_unique sorts.backends others.backends hdistinct hbackends).symm
  constructor
  · exact backend_exact sorts helpers userManager config backends algoMetaStatistic
  constructor
  · exact statisticDb_exact sorts helpers userManager config backends algoMetaStatistic
  constructor
  · exact hsame
  · intro hdistinct name
    exact congrArg (findByName backendName · name) (hsame hdistinct)
  · intro hdistinct name
    have hstatistics := sort_unique sorts.statistics others.statistics hdistinct
      (statisticsOf_perm hbackends halgo)
    exact congrArg (findByName statisticName · name) hstatistics.symm

/-- A backend and its statistic database, both named after the coin. -/
def namedBackend (handle : Handle) (name : String) : PoolBackend where
  handle := handle
  coinInfo := ⟨name, name, "sha256", 100000000, 1, 0, 0, 1⟩
  minimalAllowedPayout := 0
  accountingDb := handle
  statisticDb := ⟨handle, ⟨name, name, "sha256", 100000000, 1, 0, 0, 1⟩⟩

theorem lookups_exact_two :
    let emptyManager := emptyServer.userManager
    let first := poolHttpServer insertionSorts emptyServer.helpers emptyManager {}
      [namedBackend 1 "BTC", namedBackend 2 "BCH"] []
    let second := poolHttpServer insertionSorts emptyServer.helpers emptyManager {}
      [namedBackend 2 "BCH", namedBackend 1 "BTC"] []
    Exact backendName [namedBackend 1 "BTC", namedBackend 2 "BCH"] first.backend ∧
      Exact statisticName (statisticsOf [namedBackend 1 "BTC", namedBackend 2 "BCH"] [])
        first.statisticDb ∧
      SameLookups [namedBackend 1 "BTC", namedBackend 2 "BCH"]
        (statisticsOf [namedBackend 1 "BTC", namedBackend 2 "BCH"] []) first second :=
  lookups_exact insertionSorts insertionSorts _ _ _ (.swap _ _ _) (.refl _)

end Server

end ServerLookup
