import PoolFrontend.CallbackCommit
import PoolFrontend.Router

/-!
# The discipline of the endpoints

A query never mutates; every other endpoint commits last. Both answer exactly once.
Three endpoints do so only while their arithmetic and their list of databases are
defined.
-/
namespace Endpoints

open CallbackProgram CallbackRuns CallbackTrace CallbackCommit
open Json Poolcore Server RequestFields UserHandlers BackendHandlers Router
open Handler (program)

/-- The switch of `onParse`: the statements run for a function and its document. -/
def dispatch (server : PoolHttpServer) (f : FunctionTy) (document : Value) : Server.Handler Unit :=
  (Action.invoke f document).handler server

/-- The operations that change what the user manager, the accounting or a backend holds. -/
def mutates : Call → Bool
  | .userAction .. => true
  | .userCreate .. => true
  | .userResendEmail .. => true
  | .userLogin .. => true
  | .userLogout .. => true
  | .userQueryMonitoringSession .. => true
  | .userChangePasswordInitiate .. => true
  | .userChangePasswordForce .. => true
  | .updateCredentials .. => true
  | .updateSettings .. => true
  | .updateFeePlan .. => true
  | .changeFeePlan .. => true
  | .activate2faInitiate .. => true
  | .deactivate2faInitiate .. => true
  | .manualPayout .. => true
  | .setProfitSwitchCoeff .. => true
  | _ => false

/-- The errors a handler answers with itself. -/
def ownErrors : List String := ["json_format_error", "request_format_error", "invalid_coin",
  "invalid_address", "invalid_interval", "unknown_column_name", "unknown_id"]

/-- A reply with an error of the handler itself. -/
def failure (m : Reply) : Prop := ∃ status ∈ ownErrors, m = statusReply status

/-- Commits last, and answers once where its operations are defined. -/
structure Orderly (defined : Prop) (p : Program Http) : Prop where
  answers : defined → InPhase .fresh p
  commits : CommitsLast mutates failure p

/-- Never mutates, and answers once where its operations are defined. -/
structure Query (defined : Prop) (p : Program Http) : Prop where
  answers : defined → InPhase .fresh p
  never : Never mutates p

/-- What never mutates commits last. -/
theorem Query.orderly {d : Prop} {p : Program Http} (h : Query d p) : Orderly d p :=
  ⟨h.answers, @never_commitsLast Http mutates failure p h.never⟩

/-- The part of a callback that writes the reply. -/
def Replies (reply : Server.Handler Unit) : Prop :=
  ∀ p, InPhase .answered p → Never mutates p →
    InPhase .held (reply fun _ => p) ∧ Never mutates (reply fun _ => p)

section Statements

variable {α : Type} {d : Prop} {fields : Option α} {body : α → Server.Handler Unit}

/-- A handler that does nothing but answer. -/
theorem query_write (m : Reply) : Query d (aioWrite m).program :=
  ⟨fun _ => (inPhase_fresh_write _ _).mpr rfl, trivial⟩

/-- An operation that is undefined excludes that the operations are defined. -/
theorem query_abort {f : α → Server.Handler Unit} (h : ¬ d) :
    Query d (require none >>= f).program :=
  ⟨fun hd => absurd hd h, trivial⟩

theorem query_status (status : String) : Query d (replyWithStatus status).program := query_write _

theorem query_object (members : Members) : Query d (replyObject members).program := query_write _

theorem query_list (name : String) (values : List Value) :
    Query d (replyList name values).program := query_write _

/-- A question that does not mutate may be asked first. -/
theorem query_ask (c : Call) {f : Answer c → Server.Handler Unit} (hc : mutates c = false)
    (h : ∀ x, Query d (f x).program) : Query d (ask c >>= f).program :=
  ⟨fun hd => (inPhase_ask _ _ _).mpr fun x => (h x).answers hd, hc, fun x _ => (h x).never⟩

theorem orderly_ask (c : Call) {f : Answer c → Server.Handler Unit} (hc : mutates c = false)
    (h : ∀ x, Orderly d (f x).program) : Orderly d (ask c >>= f).program := by
  refine ⟨fun hd => (inPhase_ask _ _ _).mpr fun x => (h x).answers hd,
    fun _ x => (h x).commits, ?_⟩
  intro hm
  rw [hc] at hm
  cases hm

/-- Fields that are refused are answered at once. -/
theorem query_accepted (h : ∀ values, fields = some values → Query d (body values).program) :
    Query d (accepted fields body).program := by
  cases fields with
  | none => exact query_status _
  | some values => exact h values rfl

theorem orderly_accepted (h : ∀ values, fields = some values → Orderly d (body values).program) :
    Orderly d (accepted fields body).program := by
  cases fields with
  | none => exact (query_status _).orderly
  | some values => exact h values rfl

theorem replies_write (m : Reply) : Replies (aioWrite m) :=
  fun _ ha hn => ⟨(inPhase_held_write _ _).mpr ha, hn⟩

theorem replies_status (status : String) : Replies (replyWithStatus status) := replies_write _

theorem replies_object (members : Members) : Replies (replyObject members) := replies_write _

theorem replies_list (name : String) (values : List Value) : Replies (replyList name values) :=
  replies_write _

theorem replies_ask (c : Call) {f : Answer c → Server.Handler Unit} (hc : mutates c = false)
    (h : ∀ x, Replies (f x)) : Replies (ask c >>= f) :=
  fun p ha hn => ⟨(inPhase_ask _ _ _).mpr fun x => (h x p ha hn).1,
    hc, fun x _ => (h x p ha hn).2⟩

/-- A callback that replies and releases its reference. -/
theorem replies_release {reply : Server.Handler Unit} (h : Replies reply) :
    InPhase .held (reply fun _ => .release .done) ∧ Never mutates (reply fun _ => .release .done) :=
  h (.release .done) ((inPhase_answered_release _).mpr rfl) trivial

/-- One operation whose callback replies commits last, whatever it changes. -/
theorem orderly_later (c : Call) {reply : Answer c → Server.Handler Unit}
    (h : ∀ x, Replies (reply x)) : Orderly d (answerLater c reply).program := by
  refine ⟨fun _ => ?_, fun x => (replies_release (h x)).2, trivial, fun _ => trivial⟩
  exact (inPhase_fresh_acquire _).mpr ((inPhase_held_issue _ _ _).mpr
    ⟨fun x => (replies_release (h x)).1, rfl⟩)

/-- It is a query where it changes nothing. -/
theorem query_later (c : Call) {reply : Answer c → Server.Handler Unit}
    (hc : mutates c = false) (h : ∀ x, Replies (reply x)) :
    Query d (answerLater c reply).program :=
  ⟨(orderly_later c h).answers, hc, fun x _ => (replies_release (h x)).2, trivial⟩

end Statements

variable {d : Prop} (server : PoolHttpServer) (ms : Members)

/-- Most handlers are of this form: they read their fields and start one operation. -/
theorem onUserAction_orderly : Orderly d (onUserAction (.object ms)).program := by
  rw [onUserAction, withFields_userAction]
  exact orderly_accepted fun _ _ => orderly_later _ replies_status

/-- A session that is given is checked first, and one that is not is not missed. -/
theorem onUserCreate_orderly : Orderly d (onUserCreate (.object ms)).program := by
  rw [onUserCreate, withFields_userCreate]
  apply orderly_accepted
  rintro ⟨sessionId, newCredentials⟩ -
  by_cases hid : sessionId = ""
  · simp only [hid, ne_eq, not_true_eq_false, if_false]
    exact orderly_later _ replies_status
  · simp only [hid, ne_eq, not_false_eq_true, if_true]
    apply orderly_ask _ rfl
    intro x
    cases x with
    | none => exact (query_status _).orderly
    | some tokenInfo => exact orderly_later _ replies_status

theorem onUserResendEmail_orderly : Orderly d (onUserResendEmail (.object ms)).program := by
  rw [onUserResendEmail, withFields_credentials]
  exact orderly_accepted fun _ _ => orderly_later _ replies_status

theorem onUserLogin_orderly : Orderly d (onUserLogin (.object ms)).program := by
  rw [onUserLogin, withFields_credentials]
  exact orderly_accepted fun _ _ => orderly_later _ fun _ => replies_object _

theorem onUserLogout_orderly : Orderly d (onUserLogout (.object ms)).program := by
  rw [onUserLogout, withFields_string]
  exact orderly_accepted fun _ _ => orderly_later _ replies_status

theorem onUserQueryMonitoringSession_orderly :
    Orderly d (onUserQueryMonitoringSession (.object ms)).program := by
  rw [onUserQueryMonitoringSession, withFields_sessionTarget]
  exact orderly_accepted fun _ _ => orderly_later _ fun _ => replies_object _

theorem onUserChangeEmail_query (document : Value) :
    Query d (onUserChangeEmail document).program := query_write _

theorem onUserChangePasswordInitiate_orderly :
    Orderly d (onUserChangePasswordInitiate (.object ms)).program := by
  rw [onUserChangePasswordInitiate, withFields_string]
  exact orderly_accepted fun _ _ => orderly_later _ replies_status

theorem onUserChangePasswordForce_orderly :
    Orderly d (onUserChangePasswordForce (.object ms)).program := by
  rw [onUserChangePasswordForce, withFields_changePasswordForce]
  exact orderly_accepted fun _ _ => orderly_later _ replies_status

theorem onUserGetCredentials_query : Query d (onUserGetCredentials (.object ms)).program := by
  rw [onUserGetCredentials, withFields_sessionTarget]
  apply query_accepted
  rintro ⟨sessionId, targetLogin⟩ -
  apply query_ask _ rfl
  intro x
  cases x with
  | none => exact query_status _
  | some tokenInfo =>
    apply query_ask _ rfl
    intro y
    cases y with
    | none => exact query_status _
    | some credentials => exact query_object _

/-- The loop asks one question for each coin and goes on with the answers. -/
theorem allCoinSettings_query (login : String) (coins : List CoinInfo)
    {k : List Value → Program Http} (h : ∀ values, Query d (k values)) :
    Query d (allCoinSettings server login coins k) := by
  induction coins generalizing k with
  | nil => exact h []
  | cons coinInfo rest ih =>
    have hrest := fun x => ih fun values => h (coinSettings server coinInfo x :: values)
    exact ⟨fun hd => (inPhase_ask _ _ _).mpr fun x => (hrest x).answers hd, rfl,
      fun x _ => (hrest x).never⟩

theorem onUserGetSettings_query : Query d (onUserGetSettings server (.object ms)).program := by
  rw [onUserGetSettings, withFields_sessionTarget]
  apply query_accepted
  rintro ⟨sessionId, targetLogin⟩ -
  apply query_ask _ rfl
  intro x
  cases x with
  | none => exact query_status _
  | some tokenInfo => exact allCoinSettings_query server _ _ fun _ => query_object _

theorem onUserUpdateCredentials_orderly :
    Orderly d (onUserUpdateCredentials (.object ms)).program := by
  rw [onUserUpdateCredentials, withFields_updateCredentials]
  exact orderly_accepted fun _ _ => orderly_later _ replies_status

/-- The coin, the threshold and the address are checked before the session, and all of them before
anything is stored. -/
theorem onUserUpdateSettings_orderly :
    Orderly d (onUserUpdateSettings server (.object ms)).program := by
  rw [onUserUpdateSettings, withFields_updateSettings]
  apply orderly_accepted
  rintro ⟨sessionId, targetLogin, coin, address, payoutThreshold, autoPayout, totp⟩ -
  dsimp only
  cases server.userManager.coinIdxMap coin with
  | none => exact (query_status _).orderly
  | some coinIdx =>
    dsimp only
    cases server.helpers.parseMoneyValue payoutThreshold
        (server.userManager.coinInfo.get coinIdx).rationalPartSize with
    | none => exact (query_status _).orderly
    | some minimalPayout =>
      dsimp only
      split
      · exact (query_status _).orderly
      · apply orderly_ask _ rfl
        intro x
        cases x with
        | none => exact (query_status _).orderly
        | some tokenInfo => exact orderly_later _ replies_status

theorem onUserEnumerateAll_query : Query d (onUserEnumerateAll server (.object ms)).program := by
  rw [onUserEnumerateAll, withFields_enumerateAll]
  apply query_accepted
  rintro ⟨sessionId, coin, offset, size, sortBy, sortDescending⟩ -
  dsimp only
  cases usersColumn sortBy with
  | none => exact query_status _
  | some column =>
    dsimp only
    cases server.statisticDb coin with
    | none => exact query_status _
    | some statistic => constructor <;> simp [program, mutates]

theorem onUserUpdateFeePlan_orderly :
    Orderly d (onUserUpdateFeePlan server (.object ms)).program := by
  rw [onUserUpdateFeePlan, withFields_feePlan]
  apply orderly_accepted
  rintro ⟨sessionId, record⟩ -
  dsimp only
  split
  · exact (query_status _).orderly
  · exact orderly_later _ replies_status

theorem onUserEnumerateFeePlan_query : Query d (onUserEnumerateFeePlan (.object ms)).program := by
  rw [onUserEnumerateFeePlan, withFields_string]
  refine query_accepted fun sessionId _ => query_ask _ rfl fun x => ?_
  cases x with
  | error status => exact query_status _
  | ok result => exact query_object _

theorem onUserGetFeePlan_query : Query d (onUserGetFeePlan (.object ms)).program := by
  rw [onUserGetFeePlan, withFields_getFeePlan]
  apply query_accepted
  rintro ⟨sessionId, feePlanId⟩ -
  apply query_ask _ rfl
  intro x
  cases x with
  | error status => exact query_status _
  | ok result => exact query_object _

theorem onUserChangeFeePlan_orderly : Orderly d (onUserChangeFeePlan (.object ms)).program := by
  rw [onUserChangeFeePlan, withFields_changeFeePlan]
  exact orderly_accepted fun _ _ => orderly_later _ replies_status

theorem onUserActivate2faInitiate_orderly :
    Orderly d (onUserActivate2faInitiate (.object ms)).program := by
  rw [onUserActivate2faInitiate, withFields_sessionTarget]
  exact orderly_accepted fun _ _ => orderly_later _ fun _ => replies_object _

theorem onUserDeactivate2faInitiate_orderly :
    Orderly d (onUserDeactivate2faInitiate (.object ms)).program := by
  rw [onUserDeactivate2faInitiate, withFields_sessionTarget]
  exact orderly_accepted fun _ _ => orderly_later _ replies_status

/-- The session is checked before the coin. -/
theorem onBackendManualPayout_orderly :
    Orderly d (onBackendManualPayout server (.object ms)).program := by
  rw [onBackendManualPayout, withFields_sessionTargetCoin]
  apply orderly_accepted
  rintro ⟨sessionId, targetLogin, coin⟩ -
  apply orderly_ask _ rfl
  intro x
  cases x with
  | none => exact (query_status _).orderly
  | some login =>
    dsimp only
    cases server.backend coin with
    | none => exact (query_status _).orderly
    | some backend => exact orderly_later _ replies_status

/-- All databases are asked at once: there has to be one. -/
def AsksNoDatabase (coin : Option String) : Prop := coin = some "" ∧ server.backends = []

/-- Without a coin every database is asked, and there has to be one. -/
theorem onBackendQueryUserBalance_query :
    Query (¬ AsksNoDatabase server ((sessionTargetCoinMembers ms).map fun fields => fields.2.2))
      (onBackendQueryUserBalance server (.object ms)).program := by
  rw [onBackendQueryUserBalance, withFields_sessionTargetCoin]
  apply query_accepted
  rintro ⟨sessionId, targetLogin, coin⟩ hfields
  apply query_ask _ rfl
  intro x
  cases x with
  | none => exact query_status _
  | some tokenInfo =>
    by_cases hcoin : coin = ""
    · cases hb : server.backends with
      | nil =>
        refine ⟨fun hd => absurd ⟨by rw [hfields, hcoin]; rfl, hb⟩ hd, ?_⟩
        simp [program, hcoin]
      | cons first rest => constructor <;> simp [program, hcoin, mutates]
    · simp only [hcoin, ne_eq, not_false_eq_true, if_true]
      cases server.backend coin with
      | none => exact query_status _
      | some backend => exact query_later _ rfl fun _ => replies_list _ _

theorem onBackendQueryUserStats_query :
    Query d (onBackendQueryUserStats server (.object ms)).program := by
  rw [onBackendQueryUserStats, withFields_userStats]
  apply query_accepted
  rintro ⟨sessionId, targetLogin, coin, offset, size, sortBy, sortDescending⟩ -
  dsimp only
  cases statsColumn sortBy with
  | none => exact query_status _
  | some column =>
    apply query_ask _ rfl
    intro x
    cases x with
    | none => exact query_status _
    | some tokenInfo =>
      dsimp only
      cases server.statisticDb coin with
      | none => exact query_status _
      | some statistic =>
        exact query_later _ rfl fun _ => replies_ask _ rfl fun _ => replies_object _

theorem queryStatsHistory_query (statistic : StatisticDb) (login worker : String)
    (timeFrom timeTo groupByInterval currentTime : Int) :
    Query d (queryStatsHistory server statistic login worker timeFrom timeTo groupByInterval
      currentTime).program :=
  query_ask _ rfl fun _ => query_object _

theorem onBackendQueryUserStatsHistory_query :
    Query d (onBackendQueryUserStatsHistory server (.object ms)).program := by
  apply query_ask _ rfl
  intro currentTime
  rw [withFields_userHistory]
  apply query_accepted
  rintro ⟨⟨sessionId, targetLogin, coin⟩, timeFrom, timeTo, groupByInterval⟩ -
  apply query_ask _ rfl
  intro x
  cases x with
  | none => exact query_status _
  | some tokenInfo =>
    dsimp only
    cases server.statisticDb coin with
    | none => exact query_status _
    | some statistic => exact queryStatsHistory_query server statistic _ _ _ _ _ _

theorem onBackendQueryWorkerStatsHistory_query :
    Query d (onBackendQueryWorkerStatsHistory server (.object ms)).program := by
  apply query_ask _ rfl
  intro currentTime
  rw [withFields_workerHistory]
  apply query_accepted
  rintro ⟨⟨sessionId, targetLogin, coin, workerId⟩, timeFrom, timeTo, groupByInterval⟩ -
  apply query_ask _ rfl
  intro x
  cases x with
  | none => exact query_status _
  | some tokenInfo =>
    dsimp only
    cases server.statisticDb coin with
    | none => exact query_status _
    | some statistic => exact queryStatsHistory_query server statistic _ _ _ _ _ _

theorem onBackendQueryCoins_query (document : Value) :
    Query d (onBackendQueryCoins server document).program := query_list _ _

theorem onBackendQueryFoundBlocks_query :
    Query d (onBackendQueryFoundBlocks server (.object ms)).program := by
  rw [onBackendQueryFoundBlocks, withFields_foundBlocks]
  apply query_accepted
  rintro ⟨coin, heightFrom, hashFrom, count⟩ -
  dsimp only
  cases server.backend coin with
  | none => exact query_status _
  | some backend => exact query_later _ rfl fun _ => replies_list _ _

theorem onBackendQueryPayouts_query :
    Query d (onBackendQueryPayouts server (.object ms)).program := by
  rw [onBackendQueryPayouts, withFields_payouts]
  apply query_accepted
  rintro ⟨sessionId, targetLogin, coin, timeFrom, count⟩ -
  apply query_ask _ rfl
  intro x
  cases x with
  | none => exact query_status _
  | some tokenInfo =>
    dsimp only
    cases server.backend coin with
    | none => exact query_status _
    | some backend => exact query_ask _ rfl fun _ => query_list _ _

theorem onBackendQueryPoolBalance_query (document : Value) :
    Query d (onBackendQueryPoolBalance document).program := query_write _

theorem onBackendQueryPoolStats_query :
    Query (¬ AsksNoDatabase server (stringOr ms "coin" ""))
      (onBackendQueryPoolStats server (.object ms)).program := by
  rw [onBackendQueryPoolStats, withFields_stringOr]
  refine query_accepted fun coin hfields => ?_
  by_cases hcoin : coin = ""
  · cases hb : server.backends with
    | nil =>
      refine ⟨fun hd => absurd ⟨by rw [hfields, hcoin], hb⟩ hd, ?_⟩
      simp [program, hcoin]
    | cons first rest => constructor <;> simp [program, hcoin, mutates]
  · simp only [hcoin, ne_eq, not_false_eq_true, if_true]
    cases server.statisticDb coin with
    | none => exact query_status _
    | some statistic =>
      exact query_later _ rfl fun _ => replies_ask _ rfl fun _ => replies_object _

theorem onBackendQueryPoolStatsHistory_query :
    Query d (onBackendQueryPoolStatsHistory server (.object ms)).program := by
  apply query_ask _ rfl
  intro currentTime
  rw [withFields_poolHistory]
  apply query_accepted
  rintro ⟨coin, timeFrom, timeTo, groupByInterval⟩ -
  dsimp only
  cases server.statisticDb coin with
  | none => exact query_status _
  | some statistic => exact queryStatsHistory_query server statistic _ _ _ _ _ _

theorem profitSwitchCoeffs_query (backends : List PoolBackend) {k : List Value → Program Http}
    (h : ∀ values, Query d (k values)) : Query d (profitSwitchCoeffs backends k) := by
  induction backends generalizing k with
  | nil => exact h []
  | cons backend rest ih =>
    have hrest := fun coeff : Double => ih fun values => h (.object
      [("name", .string backend.coinInfo.name), ("profitSwitchCoeff", .double coeff)] :: values)
    exact ⟨fun hd => (inPhase_ask _ _ _).mpr fun x => (hrest x).answers hd, rfl,
      fun x _ => (hrest x).never⟩

theorem onBackendQueryProfitSwitchCoeff_query :
    Query d (onBackendQueryProfitSwitchCoeff server (.object ms)).program := by
  rw [onBackendQueryProfitSwitchCoeff, withFields_string]
  refine query_accepted fun sessionId _ => query_ask _ rfl fun x => ?_
  cases x with
  | none => exact query_status _
  | some tokenInfo =>
    dsimp only
    split
    · exact query_status _
    · exact profitSwitchCoeffs_query _ fun _ => query_list _ _

theorem onBackendQueryPPLNSPayouts_query :
    Query d (onBackendQueryPPLNSPayouts server (.object ms)).program := by
  rw [onBackendQueryPPLNSPayouts, withFields_pplnsPayouts]
  apply query_accepted
  rintro ⟨sessionId, targetLogin, coin, timeFrom, hashFrom, count⟩ -
  apply query_ask _ rfl
  intro x
  cases x with
  | none => exact query_status _
  | some tokenInfo =>
    dsimp only
    cases server.backend coin with
    | none => exact query_status _
    | some backend => exact query_later _ rfl fun _ => replies_list _ _

/-- The check of the intervals is reached and its difference overflows. -/
def GuardUndefined : Prop :=
  ∃ sessionId targetLogin coin timeFrom timeTo groupByInterval,
    pplnsAccMembers ms = some (sessionId, targetLogin, coin, timeFrom, timeTo, groupByInterval) ∧
    (server.backend coin).isSome = true ∧
    groupByInterval ≠ 0 ∧ (2 : Int) ^ 63 ≤ timeTo - timeFrom

theorem onBackendQueryPPLNSAcc_query :
    Query (¬ GuardUndefined server ms)
      (onBackendQueryPPLNSAcc server (.object ms)).program := by
  rw [onBackendQueryPPLNSAcc, withFields_pplnsAcc]
  apply query_accepted
  rintro ⟨sessionId, targetLogin, coin, timeFrom, timeTo, groupByInterval⟩ hfields
  apply query_ask _ rfl
  intro x
  cases x with
  | none => exact query_status _
  | some tokenInfo =>
    dsimp only
    cases hb : server.backend coin with
    | none => exact query_status _
    | some backend =>
      cases hi : invalidInterval timeFrom timeTo groupByInterval with
      | none =>
        simp only [Handler.require_bind, hi]
        exact query_abort fun hd => hd ⟨_, _, _, _, _, _, hfields, by rw [hb]; rfl,
          (invalidInterval_none_iff _ _ _).mp hi⟩
      | some invalid =>
        simp only [Handler.require_bind, hi]
        cases invalid with
        | true => exact query_status _
        | false => exact query_later _ rfl fun _ => replies_list _ _

theorem onBackendUpdateProfitSwitchCoeff_orderly :
    Orderly d (onBackendUpdateProfitSwitchCoeff server (.object ms)).program := by
  rw [onBackendUpdateProfitSwitchCoeff, withFields_profitSwitchCoeff]
  apply orderly_accepted
  rintro ⟨sessionId, coin, coeff⟩ -
  apply orderly_ask _ rfl
  intro x
  cases x with
  | none => exact (query_status _).orderly
  | some tokenInfo =>
    dsimp only
    split
    · exact (query_status _).orderly
    · cases server.backend coin with
      | none => exact (query_status _).orderly
      | some backend =>
        have hok : ¬ failure (statusReply "ok") := by
          rintro ⟨status, hs, he⟩
          have he : "ok" = status := by simpa [statusReply] using he
          subst he
          revert hs
          decide
        refine ⟨fun _ => (inPhase_ask _ _ _).mpr fun _ => (inPhase_fresh_write _ _).mpr rfl, ?_⟩
        exact ⟨fun hm => Bool.noConfusion hm, fun _ _ => ⟨trivial, hok, trivial⟩⟩

/-- The loop goes on with a list or leaves with none. -/
theorem luckIntervals_query (values : List Value) (prevInterval : Int) (intervals : List Int)
    {k : Option (List Int) → Program Http} (h : ∀ found, Query d (k found)) :
    Query d (luckIntervals values prevInterval intervals k) := by
  induction values generalizing prevInterval intervals with
  | nil => exact h _
  | cons value rest ih =>
    have hadmits := Getter.int64.admits value
    rw [luckIntervals]
    cases hi : value.isInt64 with
    | false => exact h none
    | true =>
      have hget : value.getInt64.isSome = true := hadmits.symm.trans hi
      obtain ⟨interval, hv⟩ := Option.isSome_iff_exists.mp hget
      simp only [Bool.not_true, Bool.false_eq_true, if_false, hv, require]
      by_cases hle : interval ≤ prevInterval
      · simpa [hle] using h none
      · simpa [hle] using ih interval (intervals ++ [interval])

theorem onBackendPoolLuck_query : Query d (onBackendPoolLuck server (.object ms)).program := by
  simp only [onBackendPoolLuck, Value.memberIs_object, Value.member_object, Handler.require_bind]
  cases hcoin : (ms.lookup "coin").any Value.isString with
  | false => exact query_status _
  | true =>
    cases hintervals : (ms.lookup "intervals").any Value.isArray with
    | false => exact query_status _
    | true =>
      obtain ⟨coin, hc, hstring⟩ := (Option.any_eq_true _ _).mp hcoin
      obtain ⟨intervals, hv, harray⟩ := (Option.any_eq_true _ _).mp hintervals
      obtain ⟨name, hname⟩ := Option.isSome_iff_exists.mp
        ((Getter.string.admits coin).symm.trans hstring)
      obtain ⟨values, hvalues⟩ := Option.isSome_iff_exists.mp
        ((Getter.array.admits intervals).symm.trans harray)
      have hvalues : intervals.getArray = some values := hvalues
      simp only [hc, hv, hname, hvalues, Option.bind_some, Handler.require_bind, Bool.not_true,
        Bool.false_eq_true, if_false]
      cases server.backend name with
      | none => exact query_status _
      | some backend =>
        refine luckIntervals_query values 0 [] fun found => ?_
        cases found with
        | none => exact query_status _
        | some intervals => exact query_later _ rfl fun _ => replies_list _ _

theorem onInstanceEnumerateAll_query (document : Value) :
    Query d (onInstanceEnumerateAll server document).program := query_list _ _

theorem onComplexMiningStatsGetInfo_query :
    Query d (onComplexMiningStatsGetInfo (.object ms)).program := by
  rw [onComplexMiningStatsGetInfo, withFields_string]
  refine query_accepted fun sessionId _ => query_ask _ rfl fun x => ?_
  cases x with
  | none => exact query_status _
  | some tokenInfo =>
    dsimp only
    split
    · exact query_status _
    · exact query_later _ rfl fun _ => replies_write _

/-- Where a handler meets an undefined operation. -/
def Undefined : FunctionTy → Prop
  | .fnBackendQueryUserBalance =>
    AsksNoDatabase server ((sessionTargetCoinMembers ms).map fun fields => fields.2.2)
  | .fnBackendQueryPoolStats => AsksNoDatabase server (stringOr ms "coin" "")
  | .fnBackendQueryPPLNSAcc => GuardUndefined server ms
  | _ => False

theorem dispatch_orderly (f : FunctionTy) :
    Orderly (¬ Undefined server ms f) (dispatch server f (.object ms)).program := by
  cases f with
  | fnUnknown => exact (query_write _).orderly
  | fnApi => exact (query_write _).orderly
  | fnUserAction => exact onUserAction_orderly ms
  | fnUserCreate => exact onUserCreate_orderly ms
  | fnUserResendEmail => exact onUserResendEmail_orderly ms
  | fnUserLogin => exact onUserLogin_orderly ms
  | fnUserLogout => exact onUserLogout_orderly ms
  | fnUserQueryMonitoringSession => exact onUserQueryMonitoringSession_orderly ms
  | fnUserChangeEmail => exact (onUserChangeEmail_query (.object ms)).orderly
  | fnUserChangePasswordInitiate => exact onUserChangePasswordInitiate_orderly ms
  | fnUserChangePasswordForce => exact onUserChangePasswordForce_orderly ms
  | fnUserGetCredentials => exact (onUserGetCredentials_query ms).orderly
  | fnUserGetSettings => exact (onUserGetSettings_query server ms).orderly
  | fnUserUpdateCredentials => exact onUserUpdateCredentials_orderly ms
  | fnUserUpdateSettings => exact onUserUpdateSettings_orderly server ms
  | fnUserEnumerateAll => exact (onUserEnumerateAll_query server ms).orderly
  | fnUserGetFeePlan => exact (onUserGetFeePlan_query ms).orderly
  | fnUserEnumerateFeePlan => exact (onUserEnumerateFeePlan_query ms).orderly
  | fnUserUpdateFeePlan => exact onUserUpdateFeePlan_orderly server ms
  | fnUserChangeFeePlan => exact onUserChangeFeePlan_orderly ms
  | fnUserActivate2faInitiate => exact onUserActivate2faInitiate_orderly ms
  | fnUserDeactivate2faInitiate => exact onUserDeactivate2faInitiate_orderly ms
  | fnBackendManualPayout => exact onBackendManualPayout_orderly server ms
  | fnBackendQueryCoins => exact (onBackendQueryCoins_query server (.object ms)).orderly
  | fnBackendQueryUserBalance => exact (onBackendQueryUserBalance_query server ms).orderly
  | fnBackendQueryUserStats => exact (onBackendQueryUserStats_query server ms).orderly
  | fnBackendQueryUserStatsHistory =>
    exact (onBackendQueryUserStatsHistory_query server ms).orderly
  | fnBackendQueryWorkerStatsHistory =>
    exact (onBackendQueryWorkerStatsHistory_query server ms).orderly
  | fnBackendQueryFoundBlocks => exact (onBackendQueryFoundBlocks_query server ms).orderly
  | fnBackendQueryPayouts => exact (onBackendQueryPayouts_query server ms).orderly
  | fnBackendQueryPoolBalance => exact (onBackendQueryPoolBalance_query (.object ms)).orderly
  | fnBackendQueryPoolStats => exact (onBackendQueryPoolStats_query server ms).orderly
  | fnBackendQueryPoolStatsHistory =>
    exact (onBackendQueryPoolStatsHistory_query server ms).orderly
  | fnBackendQueryProfitSwitchCoeff =>
    exact (onBackendQueryProfitSwitchCoeff_query server ms).orderly
  | fnBackendQueryPPLNSPayouts => exact (onBackendQueryPPLNSPayouts_query server ms).orderly
  | fnBackendQueryPPLNSAcc => exact (onBackendQueryPPLNSAcc_query server ms).orderly
  | fnBackendUpdateProfitSwitchCoeff => exact onBackendUpdateProfitSwitchCoeff_orderly server ms
  | fnBackendPoolLuck => exact (onBackendPoolLuck_query server ms).orderly
  | fnInstanceEnumerateAll => exact (onInstanceEnumerateAll_query server (.object ms)).orderly
  | fnComplexMiningStatsGetInfo => exact (onComplexMiningStatsGetInfo_query ms).orderly

end Endpoints
