import PoolFrontend.NumericSettings
import PoolFrontend.PoolProcess
import PoolFrontend.ThreadPlan

/-!
# The end of the pool

An interrupted pool stops its HTTP server, then its services in the order of their start, and
last the monitor thread that `main` waits for. It gets there in a bounded number of steps, unless
the server that it stops first never listened.
-/
namespace ShutDown

open CallbackReferences (ReferenceCounting plainCounting)
open Interleaving (Run)
open MainSetup (PoolContext)
open PoolProcess
open Routing (parseEmpty)

variable (asyncio : ReferenceCounting) (parse : List UInt8 → Option Json.Value)
variable (server : Server.PoolHttpServer) (context : PoolContext)

theorem returned_quit {self : Process} (h : Orderly context self)
    (hreturned : self.main = .returned) : 6 ≤ self.sigInt.stage := by
  obtain ⟨hended, -⟩ := h.monitored.returned hreturned
  exact h.monitored.quit.mp (h.monitored.ended hended)

theorem no_stop (s : Service) : .stop s ∉ startCalls context ++ [.start .httpServer] := by
  simp [startCalls]

/-- A service that has been stopped was stopped after the threads of the HTTP server. -/
theorem stopped_ended {self : Process} (h : Orderly context self) {s : Service}
    (hstopped : .stop s ∈ self.calls) {http : HttpServer} (hhttp : self.httpServer = some http) :
    ∀ loop ∈ http.threads, loop = .ended := by
  intro loop hloop
  cases loop with
  | ended => rfl
  | running =>
    rw [calls_while_running context h hhttp hloop] at hstopped
    exact (no_stop context s hstopped).elim

theorem returned_calls {self : Process} (h : Orderly context self)
    (hreturned : self.main = .returned) : self.calls = plan context := by
  have hcalls := h.turn.calls
  have hmain : self.main.left = [] := by rw [hreturned]; rfl
  have hsigInt : self.sigInt.left context = [] := by
    have hquit := returned_quit context h hreturned
    cases hplace : self.sigInt <;> simp_all [SigInt.stage, SigInt.left]
  rw [hmain, hsigInt, List.append_nil, List.append_nil] at hcalls
  exact hcalls

/-- Every event but the arrival of a signal and the handling of a request. -/
def productive : Event → Bool
  | .signal _ | .http _ => false
  | _ => true

def mainWork : Main → Nat
  | .calls todo => todo.length + 2 * threadsNum context + 12
  | .httpStart => 2 * threadsNum context + 11
  | .httpThreads left => 2 * left + 10
  | .monitorThread => 9
  | .signals todo => todo.length + 4
  | .sigIntThread => 3
  | .joinMonitor => 1
  | .returned => 0

def sigIntWork : SigInt → Nat
  | .absent | .loop => threadsNum context + (stopCalls context).length + 7
  | .dumping => threadsNum context + (stopCalls context).length + 8
  | .httpStop => threadsNum context + (stopCalls context).length + 6
  | .joining i => threadsNum context - i + (stopCalls context).length + 5
  | .calls todo => todo.length + 4
  | .quitMonitor => 3
  | .leaving => 2
  | .finished => 1

/-- The threads that `Threads_` still has to see the end of. -/
def loops : Option HttpServer → Nat
  | none => 0
  | some http => http.threads.count .running

def monitorWork (monitor : Option Loop) : Nat := if monitor = some .running then 1 else 0

/-- What is left to do when the pool has been interrupted. -/
def work (process : Process) : Nat :=
  mainWork context process.main + sigIntWork context process.sigInt + loops process.httpServer +
    monitorWork process.monitor

theorem work_main {self next : Process} (h : Orderly context self)
    (hstep : MainStep context self next) : work context next < work context self := by
  have hmonitor := h.monitored.monitor
  have habsent := h.turn.absent
  cases hstep <;> simp_all [work, mainWork, Main.stage, loops, monitorWork,
    sigIntWork]
  all_goals omega

theorem work_sigInt {self next : Process} (h : Orderly context self)
    (hinterrupted : self.interrupted = true) (hstep : SigIntStep context self next) :
    work context next < work context self := by
  cases hstep with
  | @join i http here started ended =>
    have hcount := h.looping.count http started
    obtain ⟨hi, -⟩ := List.getElem?_eq_some_iff.mp ended
    simp only [work, sigIntWork, here]
    omega
  | _ =>
    simp_all [work, sigIntWork]
    try omega

theorem work_ends {i : Nat} {threads : List Loop} (h : threads[i]? = some .running) :
    (threads.set i .ended).count .running < threads.count .running := by
  obtain ⟨hi, hrunning⟩ := List.getElem?_eq_some_iff.mp h
  have hsome : 0 < threads.count .running :=
    List.count_pos_iff.mpr (hrunning ▸ List.getElem_mem hi)
  rw [List.count_set hi, hrunning]
  simpa using hsome

/-- An interrupted process has a bounded amount of work, which only signals and requests do not
lessen. -/
theorem work_step {self next : Process} {e : Event} (h : Orderly context self)
    (hinterrupted : self.interrupted = true)
    (hstep : Step asyncio parse server context self e next) :
    work context next + (if productive e then 1 else 0) ≤ work context self := by
  cases hstep with
  | main _ step => exact work_main context h step
  | sigInt _ step => exact work_sigInt context h hinterrupted step
  | @handled s _ _ => cases s <;> exact Nat.le_refl _
  | killed _ _ => exact Nat.le_refl _
  | http _ started _ _ =>
    simp only [work, started, loops]
    exact Nat.le_refl _
  | httpEnds _ _ started running =>
    have hends := work_ends running
    simp only [work, started, loops, productive, if_true]
    omega
  | monitorEnds _ _ running =>
    simp only [work, running, monitorWork, productive, if_true, reduceCtorEq,
      Option.some.injEq, if_false]
    omega

theorem interrupted_step {self next : Process} {e : Event} (h : self.interrupted = true)
    (hstep : Step asyncio parse server context self e next) : next.interrupted = true := by
  cases hstep with
  | main _ step => cases step <;> exact h
  | sigInt _ step => cases step <;> exact h
  | @handled s _ _ => cases s <;> first | exact h | rfl
  | _ => exact h

theorem work_run {self last : Process} {events : List Event} (h : Orderly context self)
    (hinterrupted : self.interrupted = true)
    (hrun : Run (Step asyncio parse server context) self events last) :
    work context last + (events.filter productive).length ≤ work context self ∧
      Orderly context last ∧ last.interrupted = true := by
  induction hrun with
  | nil => exact ⟨Nat.le_refl _, h, hinterrupted⟩
  | @snoc mid last events e _ hstep ih =>
    obtain ⟨hwork, horderly, hset⟩ := ih
    have hless := work_step asyncio parse server context horderly hset hstep
    refine ⟨?_, orderly_step asyncio parse server context horderly hstep,
      interrupted_step asyncio parse server context hset hstep⟩
    rw [List.filter_append, List.length_append]
    cases hproductive : productive e <;> simp_all
    all_goals omega

/-- `stop` is about to join the first thread of a server that never listened. -/
def JoinsNull (process : Process) : Prop :=
  process.httpServer = none ∧ process.sigInt = .joining 0

def Enabled (self : Process) : Prop :=
  ∃ e next, productive e = true ∧ Step asyncio parse server context self e next

theorem enabled_main {self next : Process} (alive : Alive self)
    (h : MainStep context self next) : Enabled asyncio parse server context self :=
  ⟨.main, next, rfl, .main alive h⟩

theorem enabled_sigInt {self next : Process} (alive : Alive self)
    (h : SigIntStep context self next) : Enabled asyncio parse server context self :=
  ⟨.sigInt, next, rfl, .sigInt alive h⟩

/-- Before it waits for the monitor thread, the main thread waits for nothing. -/
theorem main_enabled {self : Process} (h : Orderly context self) (hstage : self.main.stage < 6) :
    ∃ next, MainStep context self next := by
  cases hmain : self.main with
  | calls todo =>
    cases todo with
    | nil => exact ⟨_, .callsDone hmain⟩
    | cons c todo => exact ⟨_, .call hmain⟩
  | httpStart => exact ⟨_, .httpListens hmain⟩
  | httpThreads left =>
    cases left with
    | zero => exact ⟨_, .httpThreadsDone hmain⟩
    | succ left =>
      have hspawned := h.looping.spawning (by rw [hmain]; rfl)
      obtain ⟨http, hhttp⟩ := Option.ne_none_iff_exists'.mp hspawned
      exact ⟨_, .httpThread hmain hhttp⟩
  | monitorThread => exact ⟨_, .monitorThread hmain⟩
  | signals todo =>
    cases todo with
    | nil => exact ⟨_, .signalsDone hmain⟩
    | cons s todo => exact ⟨_, .signal hmain⟩
  | sigIntThread => exact ⟨_, .sigIntThread hmain⟩
  | joinMonitor | returned =>
    rw [hmain] at hstage
    exact absurd hstage (by decide)

/-- Of its two threads one can go on, or the loop that it waits for can end. -/
theorem enabled_or_null {self : Process} (h : Orderly context self) (alive : Alive self)
    (hinterrupted : self.interrupted = true) :
    Enabled asyncio parse server context self ∨ JoinsNull self := by
  by_cases hstage : self.main.stage < 6
  · obtain ⟨next, hnext⟩ := main_enabled context h hstage
    exact .inl (enabled_main asyncio parse server context alive hnext)
  have hmain : self.main = .joinMonitor := by
    have hrunning := alive.main
    cases hplace : self.main <;> simp_all [Main.stage]
  cases hplace : self.sigInt with
  | absent => exact absurd (h.turn.absent.mpr hplace) hstage
  | loop => exact .inl (enabled_sigInt _ _ _ _ alive (.interrupted hplace hinterrupted))
  | dumping => exact .inl (enabled_sigInt _ _ _ _ alive (.clear hplace))
  | httpStop => exact .inl (enabled_sigInt _ _ _ _ alive (.httpStop hplace))
  | joining i =>
    by_cases hlast : i = threadsNum context
    · exact .inl (enabled_sigInt _ _ _ _ alive (.joined (hlast ▸ hplace)))
    have hbound := h.looping.bound
    rw [hplace, SigInt.joined] at hbound
    cases hhttp : self.httpServer with
    | none =>
      have hfirst : i = 0 := by
        by_contra hi
        apply h.looping.started _ hhttp
        rw [hplace]
        exact Nat.pos_of_ne_zero hi
      exact .inr ⟨hhttp, hfirst ▸ hplace⟩
    | some http =>
      have hcount : http.threads.length = threadsNum context := by
        simpa [hmain, Main.spawning] using h.looping.count http hhttp
      have hi : i < http.threads.length := by omega
      have hquit : self.httpQuit = true := h.looping.quit.mpr (by rw [hplace]; exact Nat.le_refl _)
      cases hloop : http.threads[i] with
      | running =>
        have hrunning : http.threads[i]? = some .running := by simp [hi, hloop]
        exact .inl ⟨_, _, rfl, .httpEnds alive hquit hhttp hrunning⟩
      | ended =>
        have hended : http.threads[i]? = some .ended := by simp [hi, hloop]
        exact .inl (enabled_sigInt _ _ _ _ alive (.join hplace hhttp hended))
  | calls todo =>
    cases todo with
    | nil => exact .inl (enabled_sigInt _ _ _ _ alive (.callsDone hplace))
    | cons c todo => exact .inl (enabled_sigInt _ _ _ _ alive (.call hplace))
  | quitMonitor => exact .inl (enabled_sigInt _ _ _ _ alive (.quitMonitor hplace))
  | leaving => exact .inl (enabled_sigInt _ _ _ _ alive (.ends hplace))
  | finished =>
    cases hmonitor : self.monitor with
    | none =>
      have hearly := h.monitored.monitor.mp hmonitor
      rw [hmain] at hearly
      exact absurd hearly (by decide)
    | some loop =>
      cases loop with
      | running =>
        have hquit := h.monitored.quit.mpr (by rw [hplace]; decide)
        exact .inl ⟨_, _, rfl, .monitorEnds alive hquit hmonitor⟩
      | ended => exact .inl (enabled_main _ _ _ _ alive (.joinMonitor hmain hmonitor))

/-- A productive step neither kills the process nor loses the HTTP server. -/
theorem productive_keeps {self next : Process} {e : Event} (hproductive : productive e = true)
    (hstep : Step asyncio parse server context self e next) :
    next.killed = false ∧ (self.httpServer ≠ none → next.httpServer ≠ none) := by
  cases hstep with
  | main alive step => cases step <;> simp_all [alive.killed]
  | sigInt alive step => cases step <;> simp_all [alive.killed]
  | httpEnds alive => simp_all [alive.killed]
  | monitorEnds alive => simp_all [alive.killed]
  | _ => cases hproductive

def Returns (self : Process) : Prop :=
  ∃ events last, Run (Step asyncio parse server context) self events last ∧ last.main = .returned

theorem returns_step {self next : Process} {e : Event}
    (hstep : Step asyncio parse server context self e next)
    (h : Returns asyncio parse server context next) :
    Returns asyncio parse server context self := by
  obtain ⟨events, last, hrun, hreturned⟩ := h
  exact ⟨[] ++ [e] ++ events, last, (Run.nil.snoc hstep).trans hrun, hreturned⟩

theorem returns_interrupted {self : Process} (h : Orderly context self)
    (hkilled : self.killed = false) (hinterrupted : self.interrupted = true)
    (hhttp : self.httpServer ≠ none) : Returns asyncio parse server context self := by
  induction hwork : work context self using Nat.strong_induction_on generalizing self with
  | h n ih =>
    by_cases hreturned : self.main = .returned
    · exact ⟨[], self, .nil, hreturned⟩
    rcases enabled_or_null asyncio parse server context h ⟨hkilled, hreturned⟩ hinterrupted with
      ⟨e, next, hproductive, hstep⟩ | ⟨hnone, -⟩
    · have hless := work_step asyncio parse server context h hinterrupted hstep
      rw [hproductive, if_pos rfl, hwork] at hless
      obtain ⟨hkept, hstarted⟩ := productive_keeps asyncio parse server context hproductive hstep
      apply returns_step asyncio parse server context hstep
      exact ih _ hless (orderly_step asyncio parse server context h hstep) hkept
        (interrupted_step asyncio parse server context hinterrupted hstep) (hstarted hhttp) rfl
    · exact (hhttp hnone).elim

theorem main_work {self next : Process} (hstep : MainStep context self next) :
    mainWork context next.main < mainWork context self.main := by
  cases hstep <;> simp_all [mainWork]

theorem main_keeps {self next : Process} (hstep : MainStep context self next)
    (hplace : self.main ≠ .httpStart) (hhttp : 2 ≤ self.main.stage → self.httpServer ≠ none) :
    2 ≤ next.main.stage → next.httpServer ≠ none := by
  cases hstep <;> simp_all [Main.stage]

/-- The main thread reaches its wait, from which a signal interrupts the pool. -/
theorem returns_alive {self : Process} (h : Orderly context self)
    (hkilled : self.killed = false) (hhttp : 2 ≤ self.main.stage → self.httpServer ≠ none) :
    Returns asyncio parse server context self := by
  induction hwork : mainWork context self.main using Nat.strong_induction_on generalizing self with
  | h n ih =>
    by_cases hreturned : self.main = .returned
    · exact ⟨[], self, .nil, hreturned⟩
    have halive : Alive self := ⟨hkilled, hreturned⟩
    by_cases hwaiting : self.main.stage < 5
    · have hstep : ∃ next, MainStep context self next ∧
          (2 ≤ next.main.stage → next.httpServer ≠ none) := by
        by_cases hplace : self.main = .httpStart
        · exact ⟨_, .httpListens hplace, by simp⟩
        · obtain ⟨next, hnext⟩ := main_enabled context h (Nat.lt_succ_of_lt hwaiting)
          exact ⟨next, hnext, main_keeps context hnext hplace hhttp⟩
      obtain ⟨next, hnext, hstarted⟩ := hstep
      have hmain : Step asyncio parse server context self .main next := .main halive hnext
      apply returns_step asyncio parse server context hmain
      have horderly := orderly_step asyncio parse server context h hmain
      exact ih _ (hwork ▸ main_work context hnext) horderly
        (productive_keeps asyncio parse server context rfl hmain).1 hstarted rfl
    · have hinstalled : .sigint ∈ self.handlers := by
        have hhandlers := h.handlers
        cases hplace : self.main <;> simp_all [Main.stage, Main.uninstalled, allSignals]
      have hsignal : Step asyncio parse server context self (.signal .sigint)
          { self with interrupted := true } := .handled halive hinstalled
      apply returns_step asyncio parse server context hsignal
      have horderly := orderly_step asyncio parse server context h hsignal
      exact returns_interrupted asyncio parse server context horderly hkilled rfl
        (hhttp (by omega))

theorem killed_stuck {self last : Process} {events : List Event} (h : self.killed = true)
    (hrun : Run (Step asyncio parse server context) self events last) : last = self := by
  induction hrun with
  | nil => rfl
  | snoc _ hstep ih =>
    have halive : ∀ process, process = self → ¬ Alive process := by
      rintro _ rfl ⟨hkilled, -⟩
      rw [h] at hkilled
      cases hkilled
    cases hstep <;> exact (halive _ ih ‹_›).elim

/-- Without a server that listens, none comes any more. -/
theorem null_run {self last : Process} {events : List Event} (hstage : 2 ≤ self.main.stage)
    (hnone : self.httpServer = none)
    (hrun : Run (Step asyncio parse server context) self events last) :
    2 ≤ last.main.stage ∧ last.httpServer = none := by
  induction hrun with
  | nil => exact ⟨hstage, hnone⟩
  | snoc _ hstep ih =>
    obtain ⟨hlate, hnull⟩ := ih
    cases hstep with
    | main _ step => cases step <;> simp_all [Main.stage]
    | sigInt _ step => cases step <;> exact ⟨hlate, hnull⟩
    | @handled s _ _ => cases s <;> exact ⟨hlate, hnull⟩
    | _ => simp_all

theorem plan_once : (plan context).count (.start .httpServer) = 1 := by
  have hstart : .start .httpServer ∉ startCalls context := by simp [startCalls]
  have hstop : .start .httpServer ∉ stopCalls context := by simp [stopCalls]
  simp [plan, List.count_eq_zero_of_not_mem hstart, List.count_eq_zero_of_not_mem hstop]

/-- The call is made when its place in the plan has come. -/
theorem started_iff {self : Process} (h : Orderly context self) :
    .start .httpServer ∈ self.calls ↔ 2 ≤ self.main.stage := by
  constructor
  · intro hcalled
    by_contra hearly
    have hcount := plan_once context
    rw [← h.turn.calls, List.count_append, List.count_append] at hcount
    have hdone : 0 < self.calls.count (.start .httpServer) := List.count_pos_iff.mpr hcalled
    have hleft : 0 < self.main.left.count (.start .httpServer) := by
      apply List.count_pos_iff.mpr
      cases hplace : self.main <;> simp_all [Main.stage, Main.left]
    omega
  · exact h.turn.started

section Runs

variable {asyncio parse server context} {events : List Event} {last : Process}

/-- In every run the services are started and stopped in the order of the plan, and none is
stopped before the threads of the HTTP server have ended. When `main` returns, everything has
been stopped. -/
theorem stopped_in_order
    (h : Run (Step asyncio parse server context) (initial context) events last) :
    last.calls <+: plan context ∧
      (∀ s, .stop s ∈ last.calls →
        ∀ http, last.httpServer = some http → ∀ loop ∈ http.threads, loop = .ended) ∧
      (last.main = .returned → last.calls = plan context) := by
  have horderly := orderly_run asyncio parse server context h
  constructor
  · exact ⟨_, horderly.turn.calls⟩
  constructor
  · intro s hstopped http hhttp
    exact stopped_ended context horderly hstopped hhttp
  · exact returned_calls context horderly

theorem stopped_in_order_empty : ∃ events last,
    Run (Step plainCounting parseEmpty Server.emptyServer emptyPool) (initial emptyPool) events
      last ∧
      last.main = .returned ∧ last.calls = plan emptyPool := by
  obtain ⟨events, last, hrun, hreturned⟩ := returns_alive plainCounting parseEmpty
    Server.emptyServer emptyPool (orderly_initial emptyPool) rfl (by simp [initial, Main.stage])
  obtain ⟨-, -, hstopped⟩ := stopped_in_order hrun
  exact ⟨events, last, hrun, hreturned, hstopped hreturned⟩

/-- Once interrupted, the pool has a bounded number of steps of its own to make, and can always
make one until `main` has returned, unless it has to join threads that were never made. -/
theorem stops_within
    (h : Run (Step asyncio parse server context) (initial context) events last)
    (hinterrupted : last.interrupted = true) :
    (∀ later final, Run (Step asyncio parse server context) last later final →
      (later.filter productive).length ≤ work context last) ∧
    (Alive last → Enabled asyncio parse server context last ∨ JoinsNull last) := by
  have horderly := orderly_run asyncio parse server context h
  constructor
  · intro later final hrun
    obtain ⟨hwork, -, -⟩ := work_run asyncio parse server context horderly hinterrupted hrun
    omega
  · intro alive
    exact enabled_or_null asyncio parse server context horderly alive hinterrupted

theorem stops_within_empty : ∃ events last,
    Run (Step plainCounting parseEmpty Server.emptyServer emptyPool) (initial emptyPool) events
      last ∧
      Enabled plainCounting parseEmpty Server.emptyServer emptyPool last := by
  obtain ⟨events, last, http, hrun, alive, hinterrupted, hhttp, -, -⟩ :=
    emptyPool_interrupted plainCounting parseEmpty Server.emptyServer
  obtain ⟨-, henabled⟩ := stops_within hrun hinterrupted
  rcases henabled alive with hsome | ⟨hnone, -⟩
  · exact ⟨events, last, hrun, hsome⟩
  · rw [hhttp] at hnone
    cases hnone

end Runs

theorem main_threads {env : MainSetup.Environment} {config : Config.CPoolFrontendConfig}
    {document : Json.Value} (h : MainSetup.main env config document = pure context) :
    0 < threadsNum context := by
  obtain ⟨⟨loaded, config, error⟩, _, h⟩ := MainSetup.bind_completes h
  cases loaded with
  | false => exact (MainSetup.throw_completes h).elim
  | true =>
    obtain ⟨_, _, _, _, _, _, _, hhttp⟩ := ThreadPlan.setUp_rounds h
    rw [threadsNum, hhttp, ThreadPlan.httpThreads_toNat]
    exact Nat.lt_of_lt_of_le Nat.zero_lt_one (Nat.le_max_left _ _)

/-- A pool whose HTTP server does not listen, though it was started, does not end by itself. -/
theorem returns_started {self last : Process} {events : List Event} (h : Orderly context self)
    (hthreads : 0 < threadsNum context)
    (hrun : Run (Step asyncio parse server context) self events last)
    (hreturned : last.main = .returned) (hcalled : .start .httpServer ∈ self.calls) :
    self.httpServer ≠ none := by
  intro hnone
  have hstage := (started_iff context h).mp hcalled
  obtain ⟨-, hnull⟩ := null_run asyncio parse server context hstage hnone hrun
  have horderly : Orderly context last :=
    hrun.keeps (fun _ _ _ hself hstep => orderly_step asyncio parse server context hself hstep) h
  apply horderly.looping.started _ hnull
  have hquit := returned_quit context horderly hreturned
  cases hplace : last.sigInt <;> simp_all [SigInt.stage, SigInt.joined]

/-- From a state of the pool `main` can still return exactly when no signal has killed the
process and the HTTP server, once started, could bind and listen: `main` does not look at the
result of its start, and ends in a join of threads that are not there. -/
theorem can_return_iff {env : MainSetup.Environment} {config : Config.CPoolFrontendConfig}
    {document : Json.Value} {events : List Event} {last : Process}
    (hmain : MainSetup.main env config document = pure context)
    (h : Run (Step asyncio parse server context) (initial context) events last) :
    (∃ later final, Run (Step asyncio parse server context) last later final ∧
      final.main = .returned) ↔
    last.killed = false ∧ (.start .httpServer ∈ last.calls → last.httpServer ≠ none) := by
  have horderly := orderly_run asyncio parse server context h
  constructor
  · rintro ⟨later, final, hrun, hreturned⟩
    constructor
    · by_contra hkilled
      have hset := Bool.eq_true_of_not_eq_false hkilled
      have hstuck := killed_stuck asyncio parse server context hset hrun
      rw [hstuck] at hreturned
      exact hkilled (horderly.monitored.returned hreturned).2
    · exact returns_started asyncio parse server context horderly (main_threads context hmain) hrun
        hreturned
  · rintro ⟨hkilled, hstarted⟩
    apply returns_alive asyncio parse server context horderly hkilled
    intro hstage
    exact hstarted ((started_iff context horderly).mpr hstage)

theorem can_return_iff_sample : ∃ context,
    MainSetup.main NumericSettings.sampleEnvironment {} (NumericSettings.sampleDocument 72) =
      pure context ∧
    ∃ events last,
      Run (Step plainCounting parseEmpty Server.emptyServer context) (initial context) events last ∧
        last.main = .returned := by
  obtain ⟨context, hmain⟩ : ∃ context,
      MainSetup.main NumericSettings.sampleEnvironment {} (NumericSettings.sampleDocument 72) =
        pure context := ⟨_, rfl⟩
  have hreturns :=
    (can_return_iff plainCounting parseEmpty Server.emptyServer context hmain .nil).mpr
      ⟨rfl, fun hcalled => by cases hcalled⟩
  exact ⟨context, hmain, hreturns⟩

end ShutDown
