import PoolFrontend.Endpoints

/-!
# The data of one user

The core as maps from a login to data: a call about a login reads and writes only the
entry of that login. The per-user endpoints make no call about a login other than the
one their session check returned.
-/
namespace UserIsolation

open CallbackProgram CallbackRuns CallbackTrace
open Json Poolcore Server RequestFields UserHandlers BackendHandlers Endpoints
open Handler (program)

structure Store (D : Type) where
  sessions : String → String → Bool → Option UserWithAccessRights
  data : String → D

/-- The behaviour of the core on the entry of a login, and on calls about none. -/
structure Core (D : Type) where
  act : (c : Call) → D → Answer c × D
  shared : (c : Call) → Answer c

/-- The login a call is about. -/
def subject : Call → Option String
  | .getUserCredentials login => some login
  | .getUserCoinSettings login _ => some login
  | .updateSettings settings _ => some settings.login
  | .manualPayout _ login => some login
  | .queryUserBalance _ login => some login
  | .queryUserBalanceMulti _ login => some login
  | .queryPPLNSPayouts _ login _ _ _ => some login
  | .queryPPLNSAcc _ login _ _ _ => some login
  | .queryPayouts _ login _ _ => some login
  | .queryUserStats _ login _ _ _ _ => some login
  | .getHistory _ login _ _ _ _ => some login
  | _ => none

variable {D : Type} (core : Core D)

def onEntry (store : Store D) (c : Call) : Option String → Answer c × Store D
  | some login =>
    ((core.act c (store.data login)).1,
      { store with data := Function.update store.data login (core.act c (store.data login)).2 })
  | none => (core.shared c, store)

def serve : Environment Http (Store D)
  | store, .validateSession sessionId targetLogin needWriteAccess =>
    (store.sessions sessionId targetLogin needWriteAccess, store)
  | store, c => onEntry core store c (subject c)

inductive Endpoint where
  | getCredentials | getSettings | updateSettings | manualPayout | userBalance | userStats
  | userStatsHistory | workerStatsHistory | payouts | pplnsPayouts | pplnsAcc
  deriving DecidableEq, Repr

def Endpoint.handler : Endpoint → PoolHttpServer → Value → Server.Handler Unit
  | .getCredentials => fun _ => onUserGetCredentials
  | .getSettings => onUserGetSettings
  | .updateSettings => onUserUpdateSettings
  | .manualPayout => onBackendManualPayout
  | .userBalance => onBackendQueryUserBalance
  | .userStats => onBackendQueryUserStats
  | .userStatsHistory => onBackendQueryUserStatsHistory
  | .workerStatsHistory => onBackendQueryWorkerStatsHistory
  | .payouts => onBackendQueryPayouts
  | .pplnsPayouts => onBackendQueryPPLNSPayouts
  | .pplnsAcc => onBackendQueryPPLNSAcc

/-- The two endpoints that change something ask for write access. -/
def Endpoint.needWriteAccess : Endpoint → Bool
  | .updateSettings | .manualPayout => true
  | _ => false

/-- The login `validateSession` returns for the session and the target of a request. -/
def requestLogin (sessions : String → String → Bool → Option UserWithAccessRights) (ms : Members)
    (needWriteAccess : Bool) : Option String := do
  let (sessionId, targetLogin) ← sessionTargetMembers ms "id"
  let tokenInfo ← sessions sessionId targetLogin needWriteAccess
  return tokenInfo.login

section Calls

variable (sessions : String → String → Bool → Option UserWithAccessRights)
  (login : Option String)

/-- A session check is answered from the table. -/
def Admitted : (c : Call) → Answer c → Prop
  | .validateSession sessionId targetLogin needWriteAccess, x =>
    x = sessions sessionId targetLogin needWriteAccess
  | _, _ => True

/-- A session check, the clock, or a call about the login. -/
def About : Call → Prop
  | .validateSession .. => True
  | .time => True
  | c => ∃ l, login = some l ∧ subject c = some l

def Acts (p : Program Http) : Prop := Calls (Admitted sessions) (About login) p

variable {sessions login} {α : Type} {fields : Option α} {body : α → Server.Handler Unit}

theorem acts_write (m : Reply) : Acts sessions login (aioWrite m).program := trivial

theorem acts_status (status : String) : Acts sessions login (replyWithStatus status).program :=
  trivial

theorem acts_ask {c : Call} {f : Answer c → Server.Handler Unit} (hc : About login c)
    (h : ∀ x, Acts sessions login (f x).program) : Acts sessions login (ask c >>= f).program :=
  ⟨hc, fun x _ => h x⟩

theorem acts_session {sessionId targetLogin : String} {needWriteAccess : Bool}
    {f : Option UserWithAccessRights → Server.Handler Unit}
    (h : Acts sessions login (f (sessions sessionId targetLogin needWriteAccess)).program) :
    Acts sessions login
      (ask (.validateSession sessionId targetLogin needWriteAccess) >>= f).program := by
  refine ⟨trivial, fun x hx => ?_⟩
  have hx : x = sessions sessionId targetLogin needWriteAccess := hx
  rw [hx]
  exact h

theorem acts_accepted
    (h : ∀ values, fields = some values → Acts sessions login (body values).program) :
    Acts sessions login (accepted fields body).program := by
  cases fields with
  | none => trivial
  | some values => exact h values rfl

theorem acts_later {c : Call} {reply : Answer c → Server.Handler Unit} (hc : About login c)
    (h : ∀ x, Acts sessions login (reply x fun _ => .release .done)) :
    Acts sessions login (answerLater c reply).program :=
  ⟨hc, fun x _ => h x, trivial⟩

theorem requestLogin_eq {ms : Members} {sessionId targetLogin : String} {needWriteAccess : Bool}
    {tokenInfo : UserWithAccessRights}
    (hfields : sessionTargetMembers ms "id" = some (sessionId, targetLogin))
    (hx : sessions sessionId targetLogin needWriteAccess = some tokenInfo) :
    requestLogin sessions ms needWriteAccess = some tokenInfo.login := by
  simp [requestLogin, hfields, hx]

/-- The session of the request is checked; behind the check its login is known. -/
theorem acts_login {ms : Members} {sessionId targetLogin : String} {needWriteAccess : Bool}
    {f : Option UserWithAccessRights → Server.Handler Unit}
    (hfields : sessionTargetMembers ms "id" = some (sessionId, targetLogin))
    (hnone : Acts sessions (requestLogin sessions ms needWriteAccess) (f none).program)
    (hsome : ∀ tokenInfo, requestLogin sessions ms needWriteAccess = some tokenInfo.login →
      Acts sessions (requestLogin sessions ms needWriteAccess) (f (some tokenInfo)).program) :
    Acts sessions (requestLogin sessions ms needWriteAccess)
      (ask (.validateSession sessionId targetLogin needWriteAccess) >>= f).program := by
  apply acts_session
  cases hx : sessions sessionId targetLogin needWriteAccess with
  | none => exact hnone
  | some tokenInfo => exact hsome tokenInfo (requestLogin_eq hfields hx)

end Calls

variable (server : PoolHttpServer) (ms : Members)
  (sessions : String → String → Bool → Option UserWithAccessRights)

theorem userStats_session {sessionId targetLogin : String}
    {rest : String × UInt64 × UInt64 × String × Bool}
    (h : userStatsMembers ms = some (sessionId, targetLogin, rest)) :
    sessionTargetMembers ms "id" = some (sessionId, targetLogin) := by
  obtain ⟨_, _, hsession, h⟩ := session_of_bind ms h
  simp only [Option.bind_eq_bind, Option.bind_eq_some_iff, Option.pure_def, Option.some.injEq,
    Prod.mk.injEq] at h
  obtain ⟨_, _, _, _, _, _, _, _, _, _, rfl, rfl, _⟩ := h
  exact hsession

theorem userHistory_session {currentTime : Int} {sessionId targetLogin coin : String}
    {grid : Int × Int × Int}
    (h : userHistoryMembers ms currentTime = some ((sessionId, targetLogin, coin), grid)) :
    sessionTargetMembers ms "id" = some (sessionId, targetLogin) := by
  obtain ⟨_, hsession, h⟩ := Option.bind_eq_some_iff.mp h
  obtain ⟨_, _, h⟩ := Option.bind_eq_some_iff.mp h
  cases h
  exact sessionTargetCoin_session ms hsession

theorem workerHistory_session {currentTime : Int} {sessionId targetLogin : String}
    {rest : String × String} {grid : Int × Int × Int}
    (h : workerHistoryMembers ms currentTime = some ((sessionId, targetLogin, rest), grid)) :
    sessionTargetMembers ms "id" = some (sessionId, targetLogin) := by
  obtain ⟨_, _, hsession, h⟩ := session_of_bind ms h
  simp only [Option.bind_eq_bind, Option.bind_eq_some_iff, Option.pure_def, Option.some.injEq,
    Prod.mk.injEq] at h
  obtain ⟨_, _, _, _, _, _, ⟨rfl, rfl, _⟩, _⟩ := h
  exact hsession

theorem payouts_session {sessionId targetLogin : String} {rest : String × UInt64 × UInt32}
    (h : payoutsMembers ms = some (sessionId, targetLogin, rest)) :
    sessionTargetMembers ms "id" = some (sessionId, targetLogin) := by
  obtain ⟨_, _, hsession, h⟩ := session_of_bind ms h
  simp only [Option.bind_eq_bind, Option.bind_eq_some_iff, Option.pure_def, Option.some.injEq,
    Prod.mk.injEq] at h
  obtain ⟨_, _, _, _, _, _, rfl, rfl, _⟩ := h
  exact hsession

theorem pplnsPayouts_session {sessionId targetLogin : String}
    {rest : String × Int × String × UInt32}
    (h : pplnsPayoutsMembers ms = some (sessionId, targetLogin, rest)) :
    sessionTargetMembers ms "id" = some (sessionId, targetLogin) := by
  obtain ⟨_, _, hsession, h⟩ := session_of_bind ms h
  simp only [Option.bind_eq_bind, Option.bind_eq_some_iff, Option.pure_def, Option.some.injEq,
    Prod.mk.injEq] at h
  obtain ⟨_, _, _, _, _, _, _, _, rfl, rfl, _⟩ := h
  exact hsession

theorem pplnsAcc_session {sessionId targetLogin : String} {rest : String × Int × Int × Int}
    (h : pplnsAccMembers ms = some (sessionId, targetLogin, rest)) :
    sessionTargetMembers ms "id" = some (sessionId, targetLogin) := by
  obtain ⟨_, _, hsession, h⟩ := session_of_bind ms h
  simp only [Option.bind_eq_bind, Option.bind_eq_some_iff, Option.pure_def, Option.some.injEq,
    Prod.mk.injEq] at h
  obtain ⟨_, _, _, _, _, _, _, _, rfl, rfl, _⟩ := h
  exact hsession

theorem getCredentials_acts : Acts sessions (requestLogin sessions ms false)
    (onUserGetCredentials (.object ms)).program := by
  rw [onUserGetCredentials, withFields_sessionTarget]
  apply acts_accepted
  rintro ⟨sessionId, targetLogin⟩ hfields
  apply acts_login hfields (acts_status _)
  intro tokenInfo hlogin
  refine acts_ask ⟨_, hlogin, rfl⟩ fun y => ?_
  cases y with
  | none => exact acts_status _
  | some credentials => exact acts_write _

theorem allCoinSettings_acts {login : String} {owner : Option String} (hlogin : owner = some login)
    (coins : List CoinInfo) {k : List Value → Program Http}
    (h : ∀ values, Acts sessions owner (k values)) :
    Acts sessions owner (allCoinSettings server login coins k) := by
  induction coins generalizing k with
  | nil => exact h []
  | cons coinInfo rest ih => exact ⟨⟨login, hlogin, rfl⟩, fun x _ => ih fun values => h _⟩

theorem getSettings_acts : Acts sessions (requestLogin sessions ms false)
    (onUserGetSettings server (.object ms)).program := by
  rw [onUserGetSettings, withFields_sessionTarget]
  apply acts_accepted
  rintro ⟨sessionId, targetLogin⟩ hfields
  apply acts_login hfields (acts_status _)
  intro tokenInfo hlogin
  exact allCoinSettings_acts server sessions hlogin _ fun _ => acts_write _

theorem updateSettings_acts : Acts sessions (requestLogin sessions ms true)
    (onUserUpdateSettings server (.object ms)).program := by
  rw [onUserUpdateSettings, withFields_updateSettings]
  apply acts_accepted
  rintro ⟨sessionId, targetLogin, coin, address, payoutThreshold, autoPayout, totp⟩ hfields
  dsimp only
  cases server.userManager.coinIdxMap coin with
  | none => exact acts_status _
  | some coinIdx =>
    dsimp only
    cases server.helpers.parseMoneyValue payoutThreshold
        (server.userManager.coinInfo.get coinIdx).rationalPartSize with
    | none => exact acts_status _
    | some minimalPayout =>
      dsimp only
      split
      · exact acts_status _
      · apply acts_login (updateSettings_session ms hfields) (acts_status _)
        intro tokenInfo hlogin
        exact acts_later ⟨_, hlogin, rfl⟩ fun _ => trivial

theorem manualPayout_acts : Acts sessions (requestLogin sessions ms true)
    (onBackendManualPayout server (.object ms)).program := by
  rw [onBackendManualPayout, withFields_sessionTargetCoin]
  apply acts_accepted
  rintro ⟨sessionId, targetLogin, coin⟩ hfields
  apply acts_login (sessionTargetCoin_session ms hfields) (acts_status _)
  intro login hlogin
  dsimp only
  cases server.backend coin with
  | none => exact acts_status _
  | some backend => exact acts_later ⟨_, hlogin, rfl⟩ fun _ => trivial

theorem userBalance_acts : Acts sessions (requestLogin sessions ms false)
    (onBackendQueryUserBalance server (.object ms)).program := by
  rw [onBackendQueryUserBalance, withFields_sessionTargetCoin]
  apply acts_accepted
  rintro ⟨sessionId, targetLogin, coin⟩ hfields
  apply acts_login (sessionTargetCoin_session ms hfields) (acts_status _)
  intro tokenInfo hlogin
  by_cases hcoin : coin = ""
  · simp only [hcoin, ne_eq, not_true_eq_false, if_false]
    cases server.backends with
    | nil => trivial
    | cons first rest => exact ⟨⟨_, hlogin, rfl⟩, fun _ _ => trivial, trivial⟩
  · simp only [hcoin, ne_eq, not_false_eq_true, if_true]
    cases server.backend coin with
    | none => exact acts_status _
    | some backend => exact acts_later ⟨_, hlogin, rfl⟩ fun _ => trivial

theorem userStats_acts : Acts sessions (requestLogin sessions ms false)
    (onBackendQueryUserStats server (.object ms)).program := by
  rw [onBackendQueryUserStats, withFields_userStats]
  apply acts_accepted
  rintro ⟨sessionId, targetLogin, coin, offset, size, sortBy, sortDescending⟩ hfields
  dsimp only
  cases statsColumn sortBy with
  | none => exact acts_status _
  | some column =>
    apply acts_login (userStats_session ms hfields) (acts_status _)
    intro tokenInfo hlogin
    dsimp only
    cases server.statisticDb coin with
    | none => exact acts_status _
    | some statistic =>
      exact acts_later ⟨_, hlogin, rfl⟩ fun _ => ⟨trivial, fun _ _ => trivial⟩

theorem userStatsHistory_acts : Acts sessions (requestLogin sessions ms false)
    (onBackendQueryUserStatsHistory server (.object ms)).program := by
  apply acts_ask (c := .time) trivial
  intro currentTime
  rw [withFields_userHistory]
  apply acts_accepted
  rintro ⟨⟨sessionId, targetLogin, coin⟩, timeFrom, timeTo, groupByInterval⟩ hfields
  apply acts_login (userHistory_session ms hfields) (acts_status _)
  intro tokenInfo hlogin
  dsimp only
  cases server.statisticDb coin with
  | none => exact acts_status _
  | some statistic => exact acts_ask ⟨_, hlogin, rfl⟩ fun _ => acts_write _

theorem workerStatsHistory_acts : Acts sessions (requestLogin sessions ms false)
    (onBackendQueryWorkerStatsHistory server (.object ms)).program := by
  apply acts_ask (c := .time) trivial
  intro currentTime
  rw [withFields_workerHistory]
  apply acts_accepted
  rintro ⟨⟨sessionId, targetLogin, coin, workerId⟩, timeFrom, timeTo, groupByInterval⟩ hfields
  apply acts_login (workerHistory_session ms hfields) (acts_status _)
  intro tokenInfo hlogin
  dsimp only
  cases server.statisticDb coin with
  | none => exact acts_status _
  | some statistic => exact acts_ask ⟨_, hlogin, rfl⟩ fun _ => acts_write _

theorem payouts_acts : Acts sessions (requestLogin sessions ms false)
    (onBackendQueryPayouts server (.object ms)).program := by
  rw [onBackendQueryPayouts, withFields_payouts]
  apply acts_accepted
  rintro ⟨sessionId, targetLogin, coin, timeFrom, count⟩ hfields
  apply acts_login (payouts_session ms hfields) (acts_status _)
  intro tokenInfo hlogin
  dsimp only
  cases server.backend coin with
  | none => exact acts_status _
  | some backend => exact acts_ask ⟨_, hlogin, rfl⟩ fun _ => acts_write _

theorem pplnsPayouts_acts : Acts sessions (requestLogin sessions ms false)
    (onBackendQueryPPLNSPayouts server (.object ms)).program := by
  rw [onBackendQueryPPLNSPayouts, withFields_pplnsPayouts]
  apply acts_accepted
  rintro ⟨sessionId, targetLogin, coin, timeFrom, hashFrom, count⟩ hfields
  apply acts_login (pplnsPayouts_session ms hfields) (acts_status _)
  intro tokenInfo hlogin
  dsimp only
  cases server.backend coin with
  | none => exact acts_status _
  | some backend => exact acts_later ⟨_, hlogin, rfl⟩ fun _ => trivial

theorem pplnsAcc_acts : Acts sessions (requestLogin sessions ms false)
    (onBackendQueryPPLNSAcc server (.object ms)).program := by
  rw [onBackendQueryPPLNSAcc, withFields_pplnsAcc]
  apply acts_accepted
  rintro ⟨sessionId, targetLogin, coin, timeFrom, timeTo, groupByInterval⟩ hfields
  apply acts_login (pplnsAcc_session ms hfields) (acts_status _)
  intro tokenInfo hlogin
  dsimp only
  cases server.backend coin with
  | none => exact acts_status _
  | some backend =>
    simp only [Handler.require_bind]
    cases invalidInterval timeFrom timeTo groupByInterval with
    | none => trivial
    | some invalid =>
      rw [Handler.require_bind]
      cases invalid with
      | true => exact acts_status _
      | false => exact acts_later ⟨_, hlogin, rfl⟩ fun _ => trivial

theorem endpoint_acts (e : Endpoint) : Acts sessions (requestLogin sessions ms e.needWriteAccess)
    (e.handler server (.object ms)).program := by
  cases e with
  | getCredentials => exact getCredentials_acts ms sessions
  | getSettings => exact getSettings_acts server ms sessions
  | updateSettings => exact updateSettings_acts server ms sessions
  | manualPayout => exact manualPayout_acts server ms sessions
  | userBalance => exact userBalance_acts server ms sessions
  | userStats => exact userStats_acts server ms sessions
  | userStatsHistory => exact userStatsHistory_acts server ms sessions
  | workerStatsHistory => exact workerStatsHistory_acts server ms sessions
  | payouts => exact payouts_acts server ms sessions
  | pplnsPayouts => exact pplnsPayouts_acts server ms sessions
  | pplnsAcc => exact pplnsAcc_acts server ms sessions

section Stores

variable {sessions} {login : Option String}

/-- Two stores with the session table that agree on the entry of the login, if any. -/
structure Agree (sessions : String → String → Bool → Option UserWithAccessRights)
    (login : Option String) (a b : Store D) : Prop where
  left : a.sessions = sessions
  right : b.sessions = sessions
  entry : ∀ l, login = some l → a.data l = b.data l

/-- One permitted call: the same answer, and the stores agree again. -/
theorem serve_agree {a b : Store D} {c : Call} (h : Agree sessions login a b)
    (hc : About login c) :
    (serve core a c).1 = (serve core b c).1 ∧ Admitted sessions c (serve core a c).1 ∧
      Agree sessions login (serve core a c).2 (serve core b c).2 := by
  cases c with
  | validateSession sessionId targetLogin needWriteAccess =>
    refine ⟨?_, ?_, h⟩
    · change a.sessions _ _ _ = b.sessions _ _ _
      rw [h.left, h.right]
    · change a.sessions _ _ _ = sessions _ _ _
      rw [h.left]
  | time => exact ⟨rfl, trivial, h⟩
  | _ =>
    obtain ⟨l, hl, hs⟩ := hc
    have he := h.entry l hl
    refine ⟨?_, trivial, ?_⟩
    · simp only [serve, hs, onEntry, he]
    · simp only [serve, hs, onEntry, he]
      refine ⟨h.left, h.right, fun l' hl' => ?_⟩
      rw [hl] at hl'
      cases hl'
      simp

/-- A store that differs from another at most in the entry of the login. -/
structure Frame (login : Option String) (a store : Store D) : Prop where
  table : store.sessions = a.sessions
  others : ∀ l, login ≠ some l → store.data l = a.data l

/-- One permitted call leaves the table and every other entry as they are. -/
theorem serve_frame {a store : Store D} {c : Call} (h : Frame login a store)
    (hc : About login c) :
    Admitted a.sessions c (serve core store c).1 ∧ Frame login a (serve core store c).2 := by
  cases c with
  | validateSession sessionId targetLogin needWriteAccess =>
    refine ⟨?_, h⟩
    change store.sessions _ _ _ = a.sessions _ _ _
    rw [h.table]
  | time => exact ⟨trivial, h⟩
  | _ =>
    obtain ⟨owner, ho, hs⟩ := hc
    refine ⟨trivial, ?_⟩
    simp only [serve, hs, onEntry]
    refine ⟨h.table, fun l hl => ?_⟩
    have hne : l ≠ owner := by
      intro he
      exact hl (by rw [ho, he])
    exact (Function.update_of_ne hne _ _).trans (h.others l hl)

end Stores

/-- Isolation: two stores with one session table that agree on the entry of the login
the session check returns, if it returns one, give the same events, replies included;
no other entry changes, and the stores agree on that entry afterwards. -/
theorem endpoint_isolated (e : Endpoint) (a b : Store D) (hsessions : a.sessions = b.sessions)
    (hentry : ∀ login, requestLogin a.sessions ms e.needWriteAccess = some login →
      a.data login = b.data login) :
    (run (serve core) (e.handler server (.object ms)).program .handler a).1 =
      (run (serve core) (e.handler server (.object ms)).program .handler b).1 ∧
    (∀ login, requestLogin a.sessions ms e.needWriteAccess = some login →
      (run (serve core) (e.handler server (.object ms)).program .handler a).2.data login =
        (run (serve core) (e.handler server (.object ms)).program .handler b).2.data login) ∧
    (run (serve core) (e.handler server (.object ms)).program .handler a).2.sessions =
      a.sessions ∧
    ∀ login, requestLogin a.sessions ms e.needWriteAccess ≠ some login →
      (run (serve core) (e.handler server (.object ms)).program .handler a).2.data login =
        a.data login := by
  have hacts := endpoint_acts server ms a.sessions e
  have hagree := run_agree (fun _ _ _ h hc => serve_agree core h hc) _ hacts .handler a b
    ⟨rfl, hsessions.symm, hentry⟩
  have hframe : Frame (requestLogin a.sessions ms e.needWriteAccess) a
      (run (serve core) (e.handler server (.object ms)).program .handler a).2 :=
    run_keeps (fun _ _ h hc => serve_frame core h hc) _ hacts .handler a ⟨rfl, fun _ _ => rfl⟩
  exact ⟨hagree.1, hagree.2.entry, hframe.table, hframe.others⟩

/-- A core that knows the credentials of each user. -/
def credentialsCore : Core (Option Credentials) where
  act
    | .getUserCredentials _, known => (known, known)
    | c, known => (emptyAnswer c, known)
  shared := emptyAnswer

/-- One session, of `alice`; `others` is what is stored for everybody else. -/
def aliceStore (others : Option Credentials) : Store (Option Credentials) where
  sessions _ _ _ := some { login := "alice" }
  data login := if login = "alice" then some { name := "Alice" } else others

theorem alice_isolated_from_others :
    (run (serve credentialsCore)
        (onUserGetCredentials (.object [("id", .string "session")])).program .handler
        (aliceStore none)).1 =
      (run (serve credentialsCore)
        (onUserGetCredentials (.object [("id", .string "session")])).program .handler
        (aliceStore (some { name := "Bob" }))).1 :=
  (endpoint_isolated credentialsCore emptyServer [("id", .string "session")] .getCredentials
    (aliceStore none) (aliceStore (some { name := "Bob" })) rfl (by
      intro login hlogin
      have hlogin : "alice" = login := Option.some.inj hlogin
      subst hlogin
      rfl)).1

end UserIsolation
