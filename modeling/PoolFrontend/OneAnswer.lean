import PoolFrontend.Endpoints

/-!
# One answer for each dispatched request

Every schedule of a handler and its callbacks, with every answer the core may give.
-/
namespace OneAnswer

open CallbackProgram CallbackRuns CallbackTrace CallbackCommit
open Json Poolcore Server RequestFields BackendHandlers Router Endpoints
open Handler (program)

variable (server : PoolHttpServer) (ms : Members) (f : FunctionTy)

/-- In every state of every schedule the discipline holds, and no schedule is endless.
A schedule that has ended has written one message and balanced its references. -/
def AnsweredInEverySchedule (p : Program Http) : Prop :=
  ∀ s, Reaches (start p) s → AnsweredOnce s ∧ Acc (fun t u => Step u t) s

theorem mayAbort_userBalance
    (h : AsksNoDatabase server ((sessionTargetCoinMembers ms).map fun fields => fields.2.2)) :
    MayAbort (onBackendQueryUserBalance server (.object ms)).program := by
  obtain ⟨hcoin, hbackends⟩ := h
  rw [onBackendQueryUserBalance, withFields_sessionTargetCoin]
  cases hf : sessionTargetCoinMembers ms with
  | none => simp [hf] at hcoin
  | some fields =>
    obtain ⟨sessionId, targetLogin, coin⟩ := fields
    have hcoin : coin = "" := by simpa [hf] using hcoin
    refine ⟨some {}, ?_⟩
    simp [hcoin, hbackends, MayAbort]

theorem mayAbort_poolStats (h : AsksNoDatabase server (stringOr ms "coin" "")) :
    MayAbort (onBackendQueryPoolStats server (.object ms)).program := by
  obtain ⟨hcoin, hbackends⟩ := h
  rw [onBackendQueryPoolStats, withFields_stringOr, hcoin]
  simp [accepted, program, hbackends, MayAbort]

theorem mayAbort_pplnsAcc (h : GuardUndefined server ms) :
    MayAbort (onBackendQueryPPLNSAcc server (.object ms)).program := by
  obtain ⟨sessionId, targetLogin, coin, timeFrom, timeTo, groupByInterval, hfields, hbackend,
    hguard⟩ := h
  obtain ⟨backend, hb⟩ := Option.isSome_iff_exists.mp hbackend
  have hnone := (invalidInterval_none_iff timeFrom timeTo groupByInterval).mpr hguard
  rw [onBackendQueryPPLNSAcc, withFields_pplnsAcc, hfields]
  refine ⟨some {}, ?_⟩
  simp [hb, hnone, MayAbort]

theorem mayAbort_of_undefined (h : Undefined server ms f) :
    MayAbort (dispatch server f (.object ms)).program := by
  cases f with
  | fnBackendQueryUserBalance => exact mayAbort_userBalance server ms h
  | fnBackendQueryPoolStats => exact mayAbort_poolStats server ms h
  | fnBackendQueryPPLNSAcc => exact mayAbort_pplnsAcc server ms h
  | _ => exact h.elim

/-- A request is answered once, with balanced references and in finitely many steps,
exactly when its handler meets no undefined operation. -/
theorem answered_once_iff :
    AnsweredInEverySchedule (dispatch server f (.object ms)).program ↔
      ¬ Undefined server ms f := by
  constructor
  · intro h hu
    exact mayAbort_not_answered (mayAbort_of_undefined server ms f hu) fun s hs => (h s hs).1
  · intro hu s hs
    have hfresh := (dispatch_orderly server ms f).answers hu
    exact ⟨fresh_answeredOnce (fun c => ⟨emptyAnswer c⟩) hfresh hs, wellFounded_step.apply s⟩

/-- A pool with one coin. -/
def oneCoinServer : PoolHttpServer :=
  { emptyServer with
    backends := [⟨0, ⟨"BTC", "Bitcoin", "sha256", 1, 1, 0, 0, 0⟩, 0, 0,
      ⟨0, ⟨"BTC", "Bitcoin", "sha256", 1, 1, 0, 0, 0⟩⟩⟩] }

/-- An interval longer than a signed 64-bit number can hold. -/
def longInterval : Members := [("id", .string "session"), ("coin", .string "BTC"),
  ("timeFrom", .int (-2 ^ 62)), ("timeTo", .int (2 ^ 62)), ("groupByInterval", .int (-1))]

theorem long_interval_unanswered : ¬ ∀ (server : PoolHttpServer) (f : FunctionTy) (ms : Members),
    AnsweredInEverySchedule (dispatch server f (.object ms)).program := by
  intro h
  have hundefined : Undefined oneCoinServer longInterval .fnBackendQueryPPLNSAcc :=
    ⟨"session", "", "BTC", -2 ^ 62, 2 ^ 62, -1, by decide, by decide, by decide, by decide⟩
  exact mayAbort_not_answered (mayAbort_of_undefined _ _ _ hundefined)
    fun s hs => (h oneCoinServer .fnBackendQueryPPLNSAcc longInterval s hs).1

end OneAnswer
