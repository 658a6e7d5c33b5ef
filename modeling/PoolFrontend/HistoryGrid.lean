import PoolFrontend.Endpoints

/-!
# The time grid of the history endpoints

Storage divides by the interval and counts from the first to the last time. The three
endpoints hand over whatever the request holds or its defaults are.
-/
namespace HistoryGrid

open CallbackProgram CallbackRuns CallbackTrace
open Json Poolcore Server RequestFields BackendHandlers Router Endpoints
open Handler (program)

inductive Endpoint where
  | userStats | workerStats | poolStats
  deriving DecidableEq, Repr

def Endpoint.handler : Endpoint → PoolHttpServer → Value → Server.Handler Unit
  | .userStats => onBackendQueryUserStatsHistory
  | .workerStats => onBackendQueryWorkerStatsHistory
  | .poolStats => onBackendQueryPoolStatsHistory

variable {σ : Type} (serve : Environment Http σ) (s : σ) (server : PoolHttpServer) (ms : Members)

/-- The session check made right after the clock was read. -/
def validated (sessionId targetLogin : String) : Option UserWithAccessRights :=
  (serve (serve s .time).2 (.validateSession sessionId targetLogin false)).1

/-- The endpoint's own checks, apart from the grid: fields, session, database. -/
def ChecksPass : Endpoint → Prop
  | .userStats => ∃ sessionId targetLogin coin,
    sessionTargetCoinMembers ms = some (sessionId, targetLogin, coin) ∧
    (validated serve s sessionId targetLogin).isSome = true ∧
    (server.statisticDb coin).isSome = true
  | .workerStats => ∃ sessionId targetLogin coin workerId,
    string ms "id" = some sessionId ∧ stringOr ms "targetLogin" "" = some targetLogin ∧
    string ms "coin" = some coin ∧ string ms "workerId" = some workerId ∧
    (validated serve s sessionId targetLogin).isSome = true ∧
    (server.statisticDb coin).isSome = true
  | .poolStats => ∃ coin, stringOr ms "coin" "" = some coin ∧
    (server.statisticDb coin).isSome = true

/-- The three fields of the grid, read or defaulted, are no meaningful grid. -/
def MeaninglessGrid : Prop :=
  ∃ timeFrom timeTo groupByInterval,
    timeGridMembers ms (serve s .time).1 = some (timeFrom, timeTo, groupByInterval) ∧
    (groupByInterval ≤ 0 ∨ timeTo ≤ timeFrom)

/-- Storage is asked for this grid. -/
def Asked (e : Endpoint) (timeFrom timeTo groupByInterval : Int) : Prop :=
  ∃ statistic login worker, .getHistory statistic login worker timeFrom timeTo groupByInterval ∈
    calls (run serve (e.handler server (.object ms)).program .handler s).1

/-- The only grid among some calls is the last call's. -/
theorem grid_last {before : List Call} {statistic : Handle} {login worker : String}
    (hbefore : ∀ st l w x y z, Call.getHistory st l w x y z ∉ before)
    (a b c timeFrom timeTo groupByInterval : Int) :
    (∃ st l w, Call.getHistory st l w timeFrom timeTo groupByInterval ∈
        before ++ [.getHistory statistic login worker a b c]) ↔
      some (a, b, c) = some (timeFrom, timeTo, groupByInterval) := by
  constructor
  · rintro ⟨st, l, w, h⟩
    rcases List.mem_append.mp h with h | h
    · exact absurd h (hbefore st l w _ _ _)
    · cases List.mem_singleton.mp h
      rfl
  · intro h
    cases h
    exact ⟨statistic, login, worker, List.mem_append_right _ List.mem_cons_self⟩

theorem asked_userStats (timeFrom timeTo groupByInterval : Int) :
    Asked serve s server ms .userStats timeFrom timeTo groupByInterval ↔
      ChecksPass serve s server ms .userStats ∧
        timeGridMembers ms (serve s .time).1 = some (timeFrom, timeTo, groupByInterval) := by
  unfold Asked ChecksPass validated
  cases ht : sessionTargetCoinMembers ms with
  | none =>
    have hf : userHistoryMembers ms (serve s .time).1 = none := by simp [userHistoryMembers, ht]
    simp [Endpoint.handler, onBackendQueryUserStatsHistory, program, accepted, hf]
  | some target =>
    obtain ⟨sessionId, targetLogin, coin⟩ := target
    cases hg : timeGridMembers ms (serve s .time).1 with
    | none =>
      have hf : userHistoryMembers ms (serve s .time).1 = none := by
        simp [userHistoryMembers, ht, hg]
      simp [Endpoint.handler, onBackendQueryUserStatsHistory, program, accepted, hf]
    | some grid =>
      obtain ⟨a, b, c⟩ := grid
      have hf : userHistoryMembers ms (serve s .time).1 =
          some ((sessionId, targetLogin, coin), a, b, c) := by simp [userHistoryMembers, ht, hg]
      cases hx : (serve (serve s .time).2 (.validateSession sessionId targetLogin false)).1 with
      | none => simp [Endpoint.handler, onBackendQueryUserStatsHistory, program, accepted, hf, hx]
      | some tokenInfo =>
        cases hd : server.statisticDb coin with
        | none =>
          simp [Endpoint.handler, onBackendQueryUserStatsHistory, program, accepted, hf, hx, hd]
        | some statistic =>
          have hcalls : calls (run serve
              (Endpoint.userStats.handler server (.object ms)).program .handler s).1 =
                [.time, .validateSession sessionId targetLogin false] ++
                  [.getHistory statistic.handle tokenInfo.login "" a b c] := by
            simp [Endpoint.handler, onBackendQueryUserStatsHistory, program, accepted, hf, hx, hd,
              queryStatsHistory]
          have hchecks : ∃ sessionId' targetLogin' coin',
              some (sessionId, targetLogin, coin) = some (sessionId', targetLogin', coin') ∧
              (serve (serve s .time).2
                (.validateSession sessionId' targetLogin' false)).1.isSome = true ∧
              (server.statisticDb coin').isSome = true :=
            ⟨sessionId, targetLogin, coin, rfl, by rw [hx]; rfl, by rw [hd]; rfl⟩
          rw [hcalls, grid_last (by simp), and_iff_right hchecks]

theorem asked_workerStats (timeFrom timeTo groupByInterval : Int) :
    Asked serve s server ms .workerStats timeFrom timeTo groupByInterval ↔
      ChecksPass serve s server ms .workerStats ∧
        timeGridMembers ms (serve s .time).1 = some (timeFrom, timeTo, groupByInterval) := by
  unfold Asked ChecksPass validated
  cases hf : workerHistoryMembers ms (serve s .time).1 with
  | none =>
    have hnone : ¬ ((∃ sessionId targetLogin coin workerId, string ms "id" = some sessionId ∧
        stringOr ms "targetLogin" "" = some targetLogin ∧ string ms "coin" = some coin ∧
        string ms "workerId" = some workerId) ∧
        ∃ grid, timeGridMembers ms (serve s .time).1 = some grid) := by
      rintro ⟨⟨_, _, _, _, h1, h2, h3, h4⟩, grid, h5⟩
      simp [workerHistoryMembers, h1, h2, h3, h4, h5] at hf
    constructor
    · simp [Endpoint.handler, onBackendQueryWorkerStatsHistory, program, accepted, hf]
    · rintro ⟨⟨_, _, _, _, h1, h2, h3, h4, _⟩, h5⟩
      exact absurd ⟨⟨_, _, _, _, h1, h2, h3, h4⟩, _, h5⟩ hnone
  | some fields =>
    obtain ⟨⟨_, _, _, _⟩, a, b, c⟩ := fields
    have hparts := hf
    simp only [workerHistoryMembers, Option.bind_eq_bind, Option.bind_eq_some_iff, Option.pure_def,
      Option.some.injEq, Prod.mk.injEq] at hparts
    obtain ⟨sessionId, h1, targetLogin, h2, coin, h3, workerId, h4, _, h5, ⟨rfl, rfl, rfl, rfl⟩,
      rfl⟩ := hparts
    cases hx : (serve (serve s .time).2 (.validateSession sessionId targetLogin false)).1 with
    | none =>
      simp [Endpoint.handler, onBackendQueryWorkerStatsHistory, program, accepted, hf, hx, h1, h2,
        h3]
    | some tokenInfo =>
      cases hd : server.statisticDb coin with
      | none =>
        simp [Endpoint.handler, onBackendQueryWorkerStatsHistory, program, accepted, hf, hx, hd, h1,
          h2, h3]
      | some statistic =>
        have hcalls : calls (run serve
            (Endpoint.workerStats.handler server (.object ms)).program .handler s).1 =
              [.time, .validateSession sessionId targetLogin false] ++
                [.getHistory statistic.handle tokenInfo.login workerId a b c] := by
          simp [Endpoint.handler, onBackendQueryWorkerStatsHistory, program, accepted, hf, hx, hd,
            queryStatsHistory]
        have hchecks : ChecksPass serve s server ms .workerStats :=
          ⟨sessionId, targetLogin, coin, workerId, h1, h2, h3, h4,
            by rw [validated, hx]; rfl, by rw [hd]; rfl⟩
        rw [hcalls, grid_last (by simp), h5]
        exact (and_iff_right hchecks).symm

theorem asked_poolStats (timeFrom timeTo groupByInterval : Int) :
    Asked serve s server ms .poolStats timeFrom timeTo groupByInterval ↔
      ChecksPass serve s server ms .poolStats ∧
        timeGridMembers ms (serve s .time).1 = some (timeFrom, timeTo, groupByInterval) := by
  unfold Asked ChecksPass
  cases hc : stringOr ms "coin" "" with
  | none =>
    have hf : poolHistoryMembers ms (serve s .time).1 = none := by simp [poolHistoryMembers, hc]
    simp [Endpoint.handler, onBackendQueryPoolStatsHistory, program, accepted, hf]
  | some coin =>
    cases hg : timeGridMembers ms (serve s .time).1 with
    | none =>
      have hf : poolHistoryMembers ms (serve s .time).1 = none := by
        simp [poolHistoryMembers, hc, hg]
      simp [Endpoint.handler, onBackendQueryPoolStatsHistory, program, accepted, hf]
    | some grid =>
      obtain ⟨a, b, c⟩ := grid
      have hf : poolHistoryMembers ms (serve s .time).1 = some (coin, a, b, c) := by
        simp [poolHistoryMembers, hc, hg]
      cases hd : server.statisticDb coin with
      | none => simp [Endpoint.handler, onBackendQueryPoolStatsHistory, program, accepted, hf, hd]
      | some statistic =>
        have hcalls : calls (run serve
            (Endpoint.poolStats.handler server (.object ms)).program .handler s).1 =
              [.time] ++ [.getHistory statistic.handle "" "" a b c] := by
          simp [Endpoint.handler, onBackendQueryPoolStatsHistory, program, accepted, hf, hd,
            queryStatsHistory]
        have hchecks : ∃ coin', some coin = some coin' ∧
            (server.statisticDb coin').isSome = true := ⟨coin, rfl, by rw [hd]; rfl⟩
        rw [hcalls, grid_last (by simp), and_iff_right hchecks]

/-- Storage is asked for the grid of the request whenever the other checks pass. -/
theorem asked_iff (e : Endpoint) (timeFrom timeTo groupByInterval : Int) :
    Asked serve s server ms e timeFrom timeTo groupByInterval ↔
      ChecksPass serve s server ms e ∧
        timeGridMembers ms (serve s .time).1 = some (timeFrom, timeTo, groupByInterval) := by
  cases e with
  | userStats => exact asked_userStats serve s server ms timeFrom timeTo groupByInterval
  | workerStats => exact asked_workerStats serve s server ms timeFrom timeTo groupByInterval
  | poolStats => exact asked_poolStats serve s server ms timeFrom timeTo groupByInterval

/-- Every grid storage is asked for has a positive interval and runs forward. -/
def MeaningfulGrids (e : Endpoint) : Prop :=
  ∀ timeFrom timeTo groupByInterval, Asked serve s server ms e timeFrom timeTo groupByInterval →
    0 < groupByInterval ∧ timeFrom < timeTo

/-- No endpoint checks the grid: it is meaningful exactly as long as the other checks
reject the request or its fields happen to be one. -/
theorem meaningful_grids_iff (e : Endpoint) :
    MeaningfulGrids serve s server ms e ↔
      ¬ (ChecksPass serve s server ms e ∧ MeaninglessGrid serve s ms) := by
  constructor
  · rintro h ⟨hchecks, timeFrom, timeTo, groupByInterval, hgrid, hbad⟩
    have hgood := h _ _ _ ((asked_iff serve s server ms e _ _ _).mpr ⟨hchecks, hgrid⟩)
    omega
  · intro h timeFrom timeTo groupByInterval hasked
    obtain ⟨hchecks, hgrid⟩ := (asked_iff serve s server ms e _ _ _).mp hasked
    by_contra hbad
    exact h ⟨hchecks, timeFrom, timeTo, groupByInterval, hgrid, by omega⟩

/-- A core at a fixed time. -/
def clock : Environment Http Unit
  | _, .time => (1700000000, ())
  | _, c => (emptyAnswer c, ())

/-- A pool with one statistic database. -/
def statisticServer : PoolHttpServer :=
  { emptyServer with statistics := [⟨0, ⟨"BTC", "Bitcoin", "sha256", 1, 1, 0, 0, 0⟩⟩] }

/-- A request for the history of the pool in intervals of no length. -/
def zeroInterval : Members := [("coin", .string "BTC"), ("groupByInterval", .int 0)]

theorem zero_interval_asked : ¬ ∀ (σ : Type) (serve : Environment Http σ) (s : σ)
    (server : PoolHttpServer) (ms : Members) (e : Endpoint),
    MeaningfulGrids serve s server ms e := by
  intro h
  have hchecks : ChecksPass clock () statisticServer zeroInterval .poolStats :=
    ⟨"BTC", rfl, by decide⟩
  have hasked := (asked_poolStats clock () statisticServer zeroInterval _ _ _).mpr ⟨hchecks, rfl⟩
  have hgrid := h Unit clock () statisticServer zeroInterval .poolStats _ _ _ hasked
  exact absurd hgrid.1 (by decide)

end HistoryGrid
