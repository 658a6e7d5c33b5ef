import PoolFrontend.OneAnswer
import PoolFrontend.CallbackTrace

/-!
# The interval guard of the PPLNS accumulator

The guard means to let a grid of one to 3200 intervals through. It does not look at the sign
of the interval, and takes the difference of the two times before anything bounds it.
-/
namespace IntervalGuard

open CallbackProgram CallbackRuns CallbackTrace
open Json MachineInt Poolcore Server RequestFields BackendHandlers OneAnswer
open Handler (program)

/-- A grid of at most 3200 intervals from the first time to the last. -/
def OnGrid (timeFrom timeTo groupByInterval : Int) : Prop :=
  0 < groupByInterval ∧ ∃ k : Int, 1 ≤ k ∧ k ≤ 3200 ∧ timeTo = timeFrom + k * groupByInterval

/-- The difference fits 64 bits and the interval is positive, unless a check that needs
neither rejects them: no interval, none forward, or a remainder. -/
def Intended (timeFrom timeTo groupByInterval : Int) : Prop :=
  timeTo ≤ timeFrom ∨ groupByInterval = 0 ∨ (timeTo - timeFrom < 2 ^ 63 ∧
    (0 < groupByInterval ∨ ¬ groupByInterval ∣ timeTo - timeFrom))

section Guard

variable {timeFrom timeTo groupByInterval : Int}

/-- Where nothing is undefined the guard rejects a remainder or too large a quotient. -/
theorem invalidInterval_eq (hforward : timeFrom < timeTo) (hzero : groupByInterval ≠ 0)
    (hfits : timeTo - timeFrom < 2 ^ 63) :
    invalidInterval timeFrom timeTo groupByInterval =
      some (decide (¬ groupByInterval ∣ timeTo - timeFrom ∨
        3200 < (timeTo - timeFrom).tdiv groupByInterval)) := by
  have hdifference : InInt64 (timeTo - timeFrom) := by
    unfold InInt64
    omega
  have hquotient := tdiv_inInt64 groupByInterval (by omega) hdifference
  have hsub : sub64 timeTo timeFrom = some (timeTo - timeFrom) := if_pos hdifference
  have hmod : mod64 (timeTo - timeFrom) groupByInterval =
      some ((timeTo - timeFrom).tmod groupByInterval) := if_pos ⟨hzero, hquotient⟩
  have hdiv : div64 (timeTo - timeFrom) groupByInterval =
      some ((timeTo - timeFrom).tdiv groupByInterval) := if_pos ⟨hzero, hquotient⟩
  rw [invalidInterval, if_neg (by omega), if_neg hzero]
  simp only [hsub, hmod, hdiv, Option.bind_eq_bind, Option.bind_some, Int.dvd_iff_tmod_eq_zero]
  by_cases hremainder : (timeTo - timeFrom).tmod groupByInterval = 0
  · simp [hremainder]
  · simp [hremainder]

/-- A quotient of a forward interval. -/
theorem quotient {k : Int} (hzero : groupByInterval ≠ 0)
    (hk : timeTo - timeFrom = groupByInterval * k) :
    (timeTo - timeFrom).tdiv groupByInterval = k := by
  rw [hk, Int.mul_tdiv_cancel_left k hzero]

theorem onGrid_iff : OnGrid timeFrom timeTo groupByInterval ↔
    timeFrom < timeTo ∧ 0 < groupByInterval ∧ groupByInterval ∣ timeTo - timeFrom ∧
      (timeTo - timeFrom).tdiv groupByInterval ≤ 3200 := by
  constructor
  · rintro ⟨hpositive, k, hone, hmany, rfl⟩
    have hproduct : 0 < k * groupByInterval := Int.mul_pos (by omega) hpositive
    have hdifference : timeFrom + k * groupByInterval - timeFrom = groupByInterval * k := by
      rw [Int.mul_comm]
      omega
    refine ⟨by omega, hpositive, ⟨k, hdifference⟩, ?_⟩
    rw [quotient (by omega) hdifference]
    exact hmany
  · rintro ⟨hforward, hpositive, ⟨k, hk⟩, hmany⟩
    rw [quotient (by omega) hk] at hmany
    have hone : 0 < k := Int.pos_of_mul_pos_right (by rw [← hk]; omega) hpositive
    refine ⟨hpositive, k, by omega, hmany, ?_⟩
    rw [Int.mul_comm]
    omega

/-- The guard comes to the verdict on the grid. -/
def Verdict (timeFrom timeTo groupByInterval : Int) : Prop :=
  (invalidInterval timeFrom timeTo groupByInterval = some false ↔
    OnGrid timeFrom timeTo groupByInterval) ∧
  (¬ OnGrid timeFrom timeTo groupByInterval →
    invalidInterval timeFrom timeTo groupByInterval = some true)

theorem verdict_fits (hforward : timeFrom < timeTo) (hzero : groupByInterval ≠ 0)
    (hfits : timeTo - timeFrom < 2 ^ 63) :
    Verdict timeFrom timeTo groupByInterval ↔
      0 < groupByInterval ∨ ¬ groupByInterval ∣ timeTo - timeFrom := by
  rw [Verdict, invalidInterval_eq hforward hzero hfits, onGrid_iff]
  by_cases hpositive : 0 < groupByInterval
  · by_cases hdivides : groupByInterval ∣ timeTo - timeFrom
    · simp [hforward, hpositive, hdivides]
    · simp [hpositive, hdivides]
  · by_cases hdivides : groupByInterval ∣ timeTo - timeFrom
    · obtain ⟨k, hk⟩ := id hdivides
      have hproduct : 0 < groupByInterval * k := by omega
      have hsign : k < 0 := Int.neg_of_mul_pos_right hproduct (by omega)
      have hquotient : ¬ 3200 < (timeTo - timeFrom).tdiv groupByInterval := by
        rw [quotient hzero hk]
        omega
      simp [hpositive, hdivides, hquotient]
    · simp [hpositive, hdivides]

theorem verdict_iff : Verdict timeFrom timeTo groupByInterval ↔
    Intended timeFrom timeTo groupByInterval := by
  by_cases hforward : timeFrom < timeTo
  · by_cases hzero : groupByInterval = 0
    · subst hzero
      have hgrid : ¬ OnGrid timeFrom timeTo 0 := fun h => absurd h.1 (by omega)
      simp [Verdict, Intended, invalidInterval, hgrid]
    · by_cases hfits : timeTo - timeFrom < 2 ^ 63
      · have hle : ¬ timeTo ≤ timeFrom := by omega
        rw [verdict_fits hforward hzero hfits, Intended, or_iff_right hle, or_iff_right hzero,
          and_iff_right hfits]
      · have hnone := (invalidInterval_none_iff timeFrom timeTo groupByInterval).mpr
          ⟨hzero, by omega⟩
        have hnot : ¬ Intended timeFrom timeTo groupByInterval := by
          unfold Intended
          omega
        simp [Verdict, hnone, hnot]
  · have hle : timeTo ≤ timeFrom := by omega
    have hgrid : ¬ OnGrid timeFrom timeTo groupByInterval := fun h =>
      hforward (onGrid_iff.mp h).1
    simp [Verdict, Intended, invalidInterval, hle, hgrid]

end Guard

section Request

variable {σ : Type} (serve : Environment Http σ) (s : σ) (server : PoolHttpServer) (ms : Members)

def trace : List (CallbackTrace.Event Http) :=
  (run serve (onBackendQueryPPLNSAcc server (.object ms)).program .handler s).1

/-- Accounting is asked for the grids it should be asked for, and every other interval is
answered with `invalid_interval` and no accounting call. -/
structure Accepts (backend : PoolBackend) (login : String)
    (timeFrom timeTo groupByInterval : Int) : Prop where
  asked : .queryPPLNSAcc backend.accountingDb login timeFrom timeTo groupByInterval ∈
    calls (trace serve s server ms) ↔ OnGrid timeFrom timeTo groupByInterval
  rejected : ¬ OnGrid timeFrom timeTo groupByInterval →
    messages (trace serve s server ms) = [statusReply "invalid_interval"] ∧
      ∀ accounting login x y z,
        Call.queryPPLNSAcc accounting login x y z ∉ calls (trace serve s server ms)

variable {serve s server ms}

section Trace

variable {sessionId targetLogin coin : String} {timeFrom timeTo groupByInterval : Int}
  {tokenInfo : UserWithAccessRights} {backend : PoolBackend}
  (hfields : pplnsAccMembers ms =
    some (sessionId, targetLogin, coin, timeFrom, timeTo, groupByInterval))
  (hsession : (serve s (.validateSession sessionId targetLogin false)).1 = some tokenInfo)
  (hbackend : server.backend coin = some backend)

include hfields hsession hbackend

theorem trace_undefined (hguard : invalidInterval timeFrom timeTo groupByInterval = none) :
    calls (trace serve s server ms) = [.validateSession sessionId targetLogin false] ∧
      messages (trace serve s server ms) = [] := by
  unfold trace
  rw [onBackendQueryPPLNSAcc, withFields_pplnsAcc, hfields]
  simp [program, accepted, hsession, hbackend, hguard, messages]

theorem trace_rejected (hguard : invalidInterval timeFrom timeTo groupByInterval = some true) :
    calls (trace serve s server ms) = [.validateSession sessionId targetLogin false] ∧
      messages (trace serve s server ms) = [statusReply "invalid_interval"] := by
  unfold trace
  rw [onBackendQueryPPLNSAcc, withFields_pplnsAcc, hfields]
  simp [program, accepted, hsession, hbackend, hguard, messages]

theorem trace_asked (hguard : invalidInterval timeFrom timeTo groupByInterval = some false) :
    calls (trace serve s server ms) = [.validateSession sessionId targetLogin false,
      .queryPPLNSAcc backend.accountingDb tokenInfo.login timeFrom timeTo groupByInterval] := by
  unfold trace
  rw [onBackendQueryPPLNSAcc, withFields_pplnsAcc, hfields]
  simp [program, accepted, hsession, hbackend, hguard]

theorem accepts_verdict :
    Accepts serve s server ms backend tokenInfo.login timeFrom timeTo groupByInterval ↔
      Verdict timeFrom timeTo groupByInterval := by
  rw [Verdict]
  cases hguard : invalidInterval timeFrom timeTo groupByInterval with
  | none =>
    obtain ⟨hcalls, hmessages⟩ := trace_undefined hfields hsession hbackend hguard
    constructor
    · intro h
      by_cases hgrid : OnGrid timeFrom timeTo groupByInterval
      · have hasked := h.asked.mpr hgrid
        simp [hcalls] at hasked
      · have hrejected := (h.rejected hgrid).1
        simp [hmessages] at hrejected
    · rintro ⟨hasked, hrejected⟩
      by_cases hgrid : OnGrid timeFrom timeTo groupByInterval
      · cases hasked.mpr hgrid
      · cases hrejected hgrid
  | some invalid =>
    cases invalid with
    | true =>
      obtain ⟨hcalls, hmessages⟩ := trace_rejected hfields hsession hbackend hguard
      constructor
      · intro h
        refine ⟨?_, fun _ => rfl⟩
        simpa [hcalls] using h.asked
      · rintro ⟨hasked, -⟩
        refine ⟨by simpa [hcalls] using hasked, fun _ => ⟨hmessages, by simp [hcalls]⟩⟩
    | false =>
      have hcalls := trace_asked hfields hsession hbackend hguard
      constructor
      · intro h
        have hgrid := h.asked.mp (by simp [hcalls])
        exact ⟨by simp [hgrid], fun hnot => absurd hgrid hnot⟩
      · rintro ⟨hasked, -⟩
        have hgrid := hasked.mp rfl
        exact ⟨by simp [hcalls, hgrid], fun hnot => absurd hgrid hnot⟩

/-- A well-typed, authorised request for an existing coin is decided as it should be exactly
where the guard meets neither a negative divisor of the interval nor a difference it cannot
hold. -/
theorem accepts_iff :
    Accepts serve s server ms backend tokenInfo.login timeFrom timeTo groupByInterval ↔
      Intended timeFrom timeTo groupByInterval :=
  (accepts_verdict hfields hsession hbackend).trans verdict_iff

end Trace

end Request

/-- A core where every session is the same user's. -/
def loggedIn : Environment Http Unit
  | _, .validateSession .. => (some ⟨"user", true⟩, ())
  | _, c => (emptyAnswer c, ())

/-- A request for a grid of the pool's coin. -/
def gridRequest (timeFrom timeTo groupByInterval : Int) : Members := [
  ("id", .string "session"), ("coin", .string "BTC"), ("timeFrom", .int timeFrom),
  ("timeTo", .int timeTo), ("groupByInterval", .int groupByInterval)]

theorem accepts_iff_hour : ∃ backend, oneCoinServer.backend "BTC" = some backend ∧
    Accepts loggedIn () oneCoinServer (gridRequest 0 3600 60) backend "user" 0 3600 60 := by
  have hfields : pplnsAccMembers (gridRequest 0 3600 60) =
      some ("session", "", "BTC", 0, 3600, 60) := by decide
  have hsession : (loggedIn () (.validateSession "session" "" false)).1 = some ⟨"user", true⟩ := rfl
  obtain ⟨backend, hbackend⟩ : ∃ backend, oneCoinServer.backend "BTC" = some backend := ⟨_, rfl⟩
  exact ⟨backend, hbackend, (accepts_iff hfields hsession hbackend).mpr (.inr (.inr (by decide)))⟩

/-- Ten seconds in intervals of minus five: accounting is asked for them. -/
theorem negative_interval_asked :
    ¬ ∀ (σ : Type) (serve : Environment Http σ) (s : σ) (server : PoolHttpServer) (ms : Members)
      (sessionId targetLogin coin : String) (timeFrom timeTo groupByInterval : Int)
      (tokenInfo : UserWithAccessRights) (backend : PoolBackend),
      pplnsAccMembers ms =
        some (sessionId, targetLogin, coin, timeFrom, timeTo, groupByInterval) →
      (serve s (.validateSession sessionId targetLogin false)).1 = some tokenInfo →
      server.backend coin = some backend →
      Accepts serve s server ms backend tokenInfo.login timeFrom timeTo groupByInterval := by
  intro h
  have hfields : pplnsAccMembers (gridRequest 0 10 (-5)) =
      some ("session", "", "BTC", 0, 10, -5) := by decide
  have hsession : (loggedIn () (.validateSession "session" "" false)).1 = some ⟨"user", true⟩ := rfl
  obtain ⟨backend, hbackend⟩ : ∃ backend, oneCoinServer.backend "BTC" = some backend := ⟨_, rfl⟩
  have hguard : invalidInterval 0 10 (-5) = some false := by decide
  have hcalls := trace_asked hfields hsession hbackend hguard
  have hgrid := (h _ _ _ _ _ _ _ _ _ _ _ _ _ hfields hsession hbackend).asked.mp (by simp [hcalls])
  exact absurd hgrid.1 (by decide)

/-- The guard is evaluated without an undefined operation exactly on no interval and on
differences that fit 64 bits. -/
theorem guard_defined_iff (timeFrom timeTo groupByInterval : Int64) :
    (invalidInterval timeFrom.toInt timeTo.toInt groupByInterval.toInt).isSome = true ↔
      groupByInterval = 0 ∨ timeTo.toInt - timeFrom.toInt < 2 ^ 63 := by
  have hzero : groupByInterval.toInt = 0 ↔ groupByInterval = 0 := by
    rw [← Int64.toInt_inj, Int64.toInt_zero]
  rw [← hzero, ← Option.ne_none_iff_isSome, ne_eq, invalidInterval_none_iff]
  omega

/-- The difference is `2 ^ 63`, and the divisor is minus one. -/
theorem guard_undefined : ¬ ∀ timeFrom timeTo groupByInterval : Int64,
    (invalidInterval timeFrom.toInt timeTo.toInt groupByInterval.toInt).isSome = true := by
  intro h
  exact absurd (h (-4611686018427387904) 4611686018427387904 (-1)) (by decide)

end IntervalGuard
