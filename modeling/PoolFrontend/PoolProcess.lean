import PoolFrontend.Listener
import PoolFrontend.MainSetup

/-!
# The threads of `main`

Once the pool is set up, `main` starts its services and then waits for the monitor thread, while
the threads of the HTTP server take requests and one thread waits for the signal that ends it all.
The set-up is over here; what the services do inside is not modelled, only when they are called.
-/
namespace PoolProcess

open MainSetup (PoolContext)
open Interleaving (Run)
open CallbackReferences (ReferenceCounting plainCounting)
open Routing (parseEmpty)

inductive Service where
  | threadPool
  | userMgr
  | backend (i : Nat)
  | algoMetaStatistic (i : Nat)
  | httpServer
  deriving DecidableEq, Repr

inductive Call where
  | start (s : Service)
  | poll (dispatcher : Nat)
  | stop (s : Service)
  deriving DecidableEq, Repr

variable (asyncio : ReferenceCounting) (parse : List UInt8 → Option Json.Value)
variable (server : Server.PoolHttpServer) (context : PoolContext)

/-- From `Start workers` to the HTTP server; each backend has its dispatcher. -/
def startCalls : List Call :=
  [.start .threadPool, .start .userMgr] ++
    (List.range context.backends.length).map (fun i => .start (.backend i)) ++
    (List.range context.algoMetaStatistic.length).map (fun i => .start (.algoMetaStatistic i)) ++
    (List.range context.backends.length).map .poll

/-- After the HTTP server. -/
def stopCalls : List Call :=
  [.stop .threadPool] ++
    (List.range context.backends.length).map (fun i => .stop (.backend i)) ++
    (List.range context.algoMetaStatistic.length).map (fun i => .stop (.algoMetaStatistic i)) ++
    [.stop .userMgr]

/-- `ThreadsNum_`. -/
def threadsNum : Nat := context.httpServer.threadsNum.toNat

inductive Signal where
  | sigint
  | sigterm
  | sigusr1
  deriving DecidableEq, Repr

/-- A thread inside `asyncLoop`, which returns after `postQuitOperation` and not before. -/
inductive Loop where
  | running
  | ended
  deriving DecidableEq, Repr

/-- Where the main thread is. -/
inductive Main where
  | calls (todo : List Call)
  | httpStart
  | httpThreads (left : Nat)
  | monitorThread
  | signals (todo : List Signal)
  | sigIntThread
  | joinMonitor
  | returned
  deriving DecidableEq, Repr

/-- Where `sigIntThread` is; `dumping` is between the test of `sigusrReceived` and its reset, and
`leaving` between the quit of the monitor and the end of the thread. -/
inductive SigInt where
  | absent
  | loop
  | dumping
  | httpStop
  | joining (i : Nat)
  | calls (todo : List Call)
  | quitMonitor
  | leaving
  | finished
  deriving DecidableEq, Repr

/-- `Threads_` and what is behind `ListenerSocket_`. -/
structure HttpServer where
  threads : List Loop := []
  listening : Listener.Listening := Listener.listening

/-- `httpServer` is there once `start` could bind and listen: `Threads_` is null before. -/
structure Process where
  main : Main
  sigInt : SigInt := .absent
  monitor : Option Loop := none
  httpServer : Option HttpServer := none
  httpQuit : Bool := false
  monitorQuit : Bool := false
  interrupted : Bool := false
  sigusrReceived : Bool := false
  killed : Bool := false
  handlers : List Signal := []
  calls : List Call := []

def initial : Process where
  main := .calls (startCalls context)

inductive MainStep (self : Process) : Process → Prop
  | call {c : Call} {todo : List Call} (here : self.main = .calls (c :: todo)) :
      MainStep self { self with main := .calls todo, calls := self.calls ++ [c] }
  | callsDone (here : self.main = .calls []) : MainStep self { self with main := .httpStart }
  | httpListens (here : self.main = .httpStart) :
      MainStep self { self with
        main := .httpThreads (threadsNum context)
        httpServer := some {}
        calls := self.calls ++ [.start .httpServer] }
  -- what `start` returns is not looked at
  | httpFails (here : self.main = .httpStart) :
      MainStep self { self with
        main := .monitorThread
        calls := self.calls ++ [.start .httpServer] }
  | httpThread {left : Nat} {http : HttpServer} (here : self.main = .httpThreads (left + 1))
      (started : self.httpServer = some http) :
      MainStep self { self with
        main := .httpThreads left
        httpServer := some { http with threads := http.threads ++ [.running] } }
  | httpThreadsDone (here : self.main = .httpThreads 0) :
      MainStep self { self with main := .monitorThread }
  | monitorThread (here : self.main = .monitorThread) :
      MainStep self { self with
        main := .signals [.sigint, .sigterm, .sigusr1]
        monitor := some .running }
  | signal {s : Signal} {todo : List Signal} (here : self.main = .signals (s :: todo)) :
      MainStep self { self with main := .signals todo, handlers := self.handlers ++ [s] }
  | signalsDone (here : self.main = .signals []) : MainStep self { self with main := .sigIntThread }
  | sigIntThread (here : self.main = .sigIntThread) :
      MainStep self { self with main := .joinMonitor, sigInt := .loop }
  | joinMonitor (here : self.main = .joinMonitor) (ended : self.monitor = some .ended) :
      MainStep self { self with main := .returned }

/-- `join` on an entry of a null `Threads_` is undefined: there is no step then. -/
inductive SigIntStep (self : Process) : Process → Prop
  | interrupted (here : self.sigInt = .loop) (set : self.interrupted = true) :
      SigIntStep self { self with sigInt := .httpStop }
  | processSigUsr (here : self.sigInt = .loop) (unset : self.interrupted = false)
      (received : self.sigusrReceived = true) : SigIntStep self { self with sigInt := .dumping }
  | sleep (here : self.sigInt = .loop) (unset : self.interrupted = false)
      (nothing : self.sigusrReceived = false) : SigIntStep self self
  | clear (here : self.sigInt = .dumping) :
      SigIntStep self { self with sigInt := .loop, sigusrReceived := false }
  | httpStop (here : self.sigInt = .httpStop) :
      SigIntStep self { self with sigInt := .joining 0, httpQuit := true }
  | join {i : Nat} {http : HttpServer} (here : self.sigInt = .joining i)
      (started : self.httpServer = some http) (ended : http.threads[i]? = some .ended) :
      SigIntStep self { self with sigInt := .joining (i + 1) }
  | joined (here : self.sigInt = .joining (threadsNum context)) :
      SigIntStep self { self with
        sigInt := .calls (stopCalls context)
        calls := self.calls ++ [.stop .httpServer] }
  | call {c : Call} {todo : List Call} (here : self.sigInt = .calls (c :: todo)) :
      SigIntStep self { self with sigInt := .calls todo, calls := self.calls ++ [c] }
  | callsDone (here : self.sigInt = .calls []) :
      SigIntStep self { self with sigInt := .quitMonitor }
  | quitMonitor (here : self.sigInt = .quitMonitor) :
      SigIntStep self { self with sigInt := .leaving, monitorQuit := true }
  | ends (here : self.sigInt = .leaving) : SigIntStep self { self with sigInt := .finished }

/-- `sigIntHandler` and `sigUsrHandler`. -/
def Process.handle (self : Process) : Signal → Process
  | .sigusr1 => { self with sigusrReceived := true }
  | _ => { self with interrupted := true }

inductive Event where
  | main
  | sigInt
  | signal (s : Signal)
  | http (e : Listener.Event)
  | httpEnds (i : Nat)
  | monitorEnds

/-- The core calls back from threads of its own; whatever else happens to the HTTP server happens
in one of its loops. -/
def byCore : Listener.Event → Bool
  | .connection _ ⟨_, .answered _, _⟩ => true
  | _ => false

structure Alive (process : Process) : Prop where
  killed : process.killed = false
  main : process.main ≠ .returned

inductive Step (self : Process) : Event → Process → Prop
  | main {next : Process} (alive : Alive self) (step : MainStep context self next) :
      Step self .main next
  | sigInt {next : Process} (alive : Alive self) (step : SigIntStep context self next) :
      Step self .sigInt next
  | handled {s : Signal} (alive : Alive self) (installed : s ∈ self.handlers) :
      Step self (.signal s) (self.handle s)
  -- all three signals end a process that does not handle them
  | killed {s : Signal} (alive : Alive self) (missing : s ∉ self.handlers) :
      Step self (.signal s) { self with killed := true }
  | http {http : HttpServer} {e : Listener.Event} {listening : Listener.Listening}
      (alive : Alive self) (started : self.httpServer = some http)
      (running : byCore e = false → .running ∈ http.threads)
      (step : Listener.Step asyncio parse server http.listening e listening) :
      Step self (.http e) { self with httpServer := some { http with listening } }
  | httpEnds {i : Nat} {http : HttpServer} (alive : Alive self) (quit : self.httpQuit = true)
      (started : self.httpServer = some http) (running : http.threads[i]? = some .running) :
      Step self (.httpEnds i)
        { self with httpServer := some { http with threads := http.threads.set i .ended } }
  | monitorEnds (alive : Alive self) (quit : self.monitorQuit = true)
      (running : self.monitor = some .running) :
      Step self .monitorEnds { self with monitor := some .ended }

/-- The calls from the start of the pool to its end. -/
def plan : List Call :=
  startCalls context ++ .start .httpServer :: .stop .httpServer :: stopCalls context

/-- The calls of the plan that the main thread has left. -/
def Main.left : Main → List Call
  | .calls todo => todo ++ [.start .httpServer]
  | .httpStart => [.start .httpServer]
  | _ => []

def SigInt.left : SigInt → List Call
  | .calls todo => todo
  | .quitMonitor | .leaving | .finished => []
  | _ => .stop .httpServer :: stopCalls context

def Main.stage : Main → Nat
  | .calls _ => 0
  | .httpStart => 1
  | .httpThreads _ => 2
  | .monitorThread => 3
  | .signals _ => 4
  | .sigIntThread => 5
  | .joinMonitor => 6
  | .returned => 7

def SigInt.stage : SigInt → Nat
  | .absent => 0
  | .loop | .dumping => 1
  | .httpStop => 2
  | .joining _ => 3
  | .calls _ => 4
  | .quitMonitor => 5
  | .leaving => 6
  | .finished => 7

/-- The second thread is made when the first has made its calls, and makes the rest of them. -/
structure InTurn (process : Process) : Prop where
  calls : process.calls ++ (process.main.left ++ process.sigInt.left context) = plan context
  absent : process.main.stage < 6 ↔ process.sigInt = .absent
  started : 2 ≤ process.main.stage → .start .httpServer ∈ process.calls

theorem inTurn_main {self next : Process} (h : InTurn context self)
    (hstep : MainStep context self next) : InTurn context next := by
  obtain ⟨hcalls, habsent, hstarted⟩ := h
  cases hstep with
  | joinMonitor here ended => constructor <;> simp_all [Main.left, Main.stage]
  | sigIntThread here => constructor <;> simp_all [Main.left, SigInt.left, Main.stage]
  | _ => constructor <;> simp_all [Main.left, Main.stage]

theorem inTurn_sigInt {self next : Process} (h : InTurn context self)
    (hstep : SigIntStep context self next) : InTurn context next := by
  obtain ⟨hcalls, habsent, hstarted⟩ := h
  have hlate : self.main.left = [] := by
    cases hmain : self.main <;> simp_all [Main.stage, Main.left]
    all_goals cases hstep <;> simp_all
  cases hstep <;> constructor <;> simp_all [SigInt.left]

theorem inTurn_step {self next : Process} {e : Event} (h : InTurn context self)
    (hstep : Step asyncio parse server context self e next) : InTurn context next := by
  obtain ⟨hcalls, habsent, hstarted⟩ := h
  cases hstep with
  | main _ step => exact inTurn_main context ⟨hcalls, habsent, hstarted⟩ step
  | sigInt _ step => exact inTurn_sigInt context ⟨hcalls, habsent, hstarted⟩ step
  | @handled s _ _ => cases s <;> exact ⟨hcalls, habsent, hstarted⟩
  | _ => exact ⟨hcalls, habsent, hstarted⟩

/-- The threads that `start` still has to make. -/
def Main.spawning : Main → Nat
  | .httpThreads left => left
  | _ => 0

/-- The threads that `stop` has joined. -/
def SigInt.joined : SigInt → Nat
  | .joining i => i
  | .calls _ | .quitMonitor | .leaving | .finished => threadsNum context
  | _ => 0

/-- The loops end after the quit and are joined after their end. -/
structure Looping (process : Process) : Prop where
  unstarted : process.main.stage < 2 → process.httpServer = none
  count : ∀ http, process.httpServer = some http →
    http.threads.length + process.main.spawning = threadsNum context
  quit : process.httpQuit = true ↔ 3 ≤ process.sigInt.stage
  ended : ∀ http, process.httpServer = some http → .ended ∈ http.threads → process.httpQuit = true
  joined : ∀ http, process.httpServer = some http →
    ∀ j < process.sigInt.joined context, http.threads[j]? = some .ended
  started : 0 < process.sigInt.joined context → process.httpServer ≠ none
  spawning : process.main.stage = 2 → process.httpServer ≠ none
  bound : process.sigInt.joined context ≤ threadsNum context

theorem looping_main {self next : Process} (hturn : InTurn context self) (h : Looping context self)
    (hstep : MainStep context self next) : Looping context next := by
  obtain ⟨hcalls, habsent, -⟩ := hturn
  obtain ⟨hunstarted, hcount, hquit, hended, hjoined, hstarted, hspawning, hbound⟩ := h
  cases hstep with
  | httpThread here started =>
    constructor <;> simp_all [Main.stage, Main.spawning, SigInt.stage, SigInt.joined]
    omega
  | _ => constructor <;> simp_all [Main.stage, Main.spawning, SigInt.stage, SigInt.joined]

theorem looping_sigInt {self next : Process} (h : Looping context self)
    (hstep : SigIntStep context self next) : Looping context next := by
  obtain ⟨hunstarted, hcount, hquit, hended, hjoined, hstarted, hspawning, hbound⟩ := h
  cases hstep with
  | @join i http here started ended =>
    have hmore : i + 1 ≤ threadsNum context := by
      obtain ⟨hi, -⟩ := List.getElem?_eq_some_iff.mp ended
      have hlength := hcount http started
      omega
    constructor <;> simp_all [SigInt.stage, SigInt.joined]
    intro j hj
    rcases Nat.lt_or_eq_of_le (by omega : j ≤ i) with hbefore | rfl
    · exact hjoined j hbefore
    · exact ended
  | _ => constructor <;> simp_all [SigInt.stage, SigInt.joined]

theorem looping_step {self next : Process} {e : Event} (hturn : InTurn context self)
    (h : Looping context self) (hstep : Step asyncio parse server context self e next) :
    Looping context next := by
  cases hstep with
  | main _ step => exact looping_main context hturn h step
  | sigInt _ step => exact looping_sigInt context h step
  | @handled s _ _ =>
    obtain ⟨hunstarted, hcount, hquit, hended, hjoined, hstarted, hspawning, hbound⟩ := h
    cases s <;> exact ⟨hunstarted, hcount, hquit, hended, hjoined, hstarted, hspawning, hbound⟩
  | @httpEnds i http alive quit started running =>
    obtain ⟨hunstarted, hcount, hquit, hended, hjoined, hstarted, hspawning, hbound⟩ := h
    constructor <;> simp_all
    intro j hj
    by_cases hij : i = j
    · rw [hij, hjoined j hj] at running
      cases running
    · rw [List.getElem?_set_ne hij]
      exact hjoined j hj
  | _ =>
    obtain ⟨hunstarted, hcount, hquit, hended, hjoined, hstarted, hspawning, hbound⟩ := h
    constructor <;> simp_all

structure Monitored (process : Process) : Prop where
  monitor : process.monitor = none ↔ process.main.stage < 4
  quit : process.monitorQuit = true ↔ 6 ≤ process.sigInt.stage
  ended : process.monitor = some .ended → process.monitorQuit = true
  returned : process.main = .returned → process.monitor = some .ended ∧ process.killed = false

theorem monitored_step {self next : Process} {e : Event} (hturn : InTurn context self)
    (h : Monitored self) (hstep : Step asyncio parse server context self e next) :
    Monitored next := by
  obtain ⟨hcalls, habsent, -⟩ := hturn
  obtain ⟨hmonitor, hquit, hended, hreturned⟩ := h
  cases hstep with
  | main alive step =>
    cases step <;> constructor <;> simp_all [Main.stage, SigInt.stage, alive.killed]
  | sigInt _ step => cases step <;> constructor <;> simp_all [SigInt.stage]
  | @handled s _ _ => cases s <;> exact ⟨hmonitor, hquit, hended, hreturned⟩
  | killed alive missing => exact ⟨hmonitor, hquit, hended, fun hmain => (alive.main hmain).elim⟩
  | monitorEnds alive quit running => constructor <;> simp_all
  | _ => exact ⟨hmonitor, hquit, hended, hreturned⟩

def allSignals : List Signal := [.sigint, .sigterm, .sigusr1]

def Main.uninstalled : Main → List Signal
  | .signals todo => todo
  | .sigIntThread | .joinMonitor | .returned => []
  | _ => allSignals

structure Orderly (process : Process) : Prop where
  turn : InTurn context process
  looping : Looping context process
  monitored : Monitored process
  handlers : process.handlers ++ process.main.uninstalled = allSignals
  interrupted : 2 ≤ process.sigInt.stage → process.interrupted = true

theorem orderly_initial : Orderly context (initial context) where
  turn := ⟨by simp [initial, Main.left, SigInt.left, plan], by simp [initial, Main.stage],
    by simp [initial, Main.stage]⟩
  looping := by constructor <;> simp [initial, Main.stage, SigInt.stage, SigInt.joined]
  monitored := by constructor <;> simp [initial, Main.stage, SigInt.stage]
  handlers := rfl
  interrupted := by simp [initial, SigInt.stage]

theorem handlers_step {self next : Process} {e : Event}
    (h : self.handlers ++ self.main.uninstalled = allSignals)
    (hstep : Step asyncio parse server context self e next) :
    next.handlers ++ next.main.uninstalled = allSignals := by
  cases hstep with
  | main _ step => cases step <;> simp_all [Main.uninstalled, allSignals]
  | sigInt _ step => cases step <;> exact h
  | @handled s _ _ => cases s <;> exact h
  | _ => exact h

theorem stopping_step {self next : Process} {e : Event}
    (h : 2 ≤ self.sigInt.stage → self.interrupted = true)
    (hstep : Step asyncio parse server context self e next) :
    2 ≤ next.sigInt.stage → next.interrupted = true := by
  cases hstep with
  | main _ step => cases step <;> simp_all [SigInt.stage]
  | sigInt _ step => cases step <;> simp_all [SigInt.stage]
  | @handled s _ _ => cases s <;> first | exact h | exact fun _ => rfl
  | _ => exact h

theorem orderly_step {self next : Process} {e : Event} (h : Orderly context self)
    (hstep : Step asyncio parse server context self e next) : Orderly context next := by
  obtain ⟨hturn, hlooping, hmonitored, hhandlers, hinterrupted⟩ := h
  exact ⟨inTurn_step asyncio parse server context hturn hstep,
    looping_step asyncio parse server context hturn hlooping hstep,
    monitored_step asyncio parse server context hturn hmonitored hstep,
    handlers_step asyncio parse server context hhandlers hstep,
    stopping_step asyncio parse server context hinterrupted hstep⟩

theorem orderly_run {events : List Event} {last : Process}
    (h : Run (Step asyncio parse server context) (initial context) events last) :
    Orderly context last :=
  h.keeps (fun _ _ _ hself hstep => orderly_step asyncio parse server context hself hstep)
    (orderly_initial context)

/-- A loop still runs: nothing has been stopped yet. -/
theorem calls_while_running {self : Process} {http : HttpServer} (h : Orderly context self)
    (hstarted : self.httpServer = some http) (hrunning : .running ∈ http.threads) :
    self.calls = startCalls context ++ [.start .httpServer] := by
  obtain ⟨⟨hcalls, -, -⟩, ⟨hunstarted, hcount, -, -, hjoined, -, -, -⟩, -, -, -⟩ := h
  have hmain : self.main.left = [] := by
    cases hplace : self.main <;> simp_all [Main.stage, Main.left]
  have hsigInt : self.sigInt.left context = .stop .httpServer :: stopCalls context := by
    obtain ⟨j, hj, hrunning⟩ := List.mem_iff_getElem.mp hrunning
    have hlength := hcount http hstarted
    have hbefore : ¬ j < self.sigInt.joined context := by
      intro hlate
      have hended := hjoined http hstarted j hlate
      rw [List.getElem?_eq_getElem hj, hrunning] at hended
      cases hended
    cases hplace : self.sigInt <;> simp_all [SigInt.left, SigInt.joined]
    all_goals omega
  rw [hmain, hsigInt, plan, List.nil_append] at hcalls
  have hall : self.calls ++ .stop .httpServer :: stopCalls context =
      startCalls context ++ [.start .httpServer] ++ .stop .httpServer :: stopCalls context := by
    rw [hcalls, List.append_assoc]
    rfl
  exact List.append_cancel_right hall

def httpEvent : Event → Option Listener.Event
  | .http e => some e
  | _ => none

/-- What the threads of the HTTP server handle in a run. -/
def httpEvents (events : List Event) : List Listener.Event := events.filterMap httpEvent

/-- The listener has seen the events of the HTTP server, and there are none without one. -/
structure Listens (events : List Event) (process : Process) : Prop where
  absent : process.httpServer = none → httpEvents events = []
  heard : ∀ http, process.httpServer = some http →
    Run (Listener.Step asyncio parse server) Listener.listening (httpEvents events) http.listening

/-- A step other than a request leaves the listener as it is or starts it. -/
theorem listens_quiet {events : List Event} {self next : Process} {e : Event}
    (h : Listens asyncio parse server events self) (hquiet : httpEvent e = none)
    (hkept : (∀ http, next.httpServer = some http → ∃ old, self.httpServer = some old ∧
        http.listening = old.listening) ∧ (next.httpServer = none → self.httpServer = none) ∨
      self.httpServer = none ∧ next.httpServer = some {}) :
    Listens asyncio parse server (events ++ [e]) next := by
  have hevents : httpEvents (events ++ [e]) = httpEvents events := by
    simp [httpEvents, List.filterMap_append, hquiet]
  obtain ⟨habsent, hheard⟩ := h
  constructor
  · intro hnext
    rw [hevents]
    rcases hkept with ⟨-, hback⟩ | ⟨-, hstarted⟩
    · exact habsent (hback hnext)
    · rw [hstarted] at hnext
      cases hnext
  · intro http hnext
    rw [hevents]
    rcases hkept with ⟨hback, -⟩ | ⟨hnothing, hstarted⟩
    · obtain ⟨old, hold, hsame⟩ := hback http hnext
      rw [hsame]
      exact hheard old hold
    · rw [hstarted] at hnext
      cases hnext
      rw [habsent hnothing]
      exact .nil

theorem listens_step {events : List Event} {self next : Process} {e : Event}
    (hself : Orderly context self) (h : Listens asyncio parse server events self)
    (hstep : Step asyncio parse server context self e next) :
    Listens asyncio parse server (events ++ [e]) next := by
  cases hstep with
  | main _ step =>
    apply listens_quiet asyncio parse server h rfl
    cases step with
    | httpListens here => exact .inr ⟨hself.looping.unstarted (by simp [here, Main.stage]), rfl⟩
    | httpThread here started => exact .inl ⟨by simp_all, by simp⟩
    | _ => exact .inl ⟨by simp_all, fun hnext => hnext⟩
  | sigInt _ step =>
    apply listens_quiet asyncio parse server h rfl
    cases step <;> exact .inl ⟨by simp_all, fun hnext => hnext⟩
  | @handled s _ _ =>
    apply listens_quiet asyncio parse server h rfl
    cases s <;> exact .inl ⟨by simp_all [Process.handle], fun hnext => hnext⟩
  | @http http e listening alive started running step =>
    constructor
    · intro hnext
      cases hnext
    · intro after hafter
      cases hafter
      have hrun := (h.heard http started).snoc step
      simpa [httpEvents, httpEvent, List.filterMap_append] using hrun
  | httpEnds alive quit started running =>
    apply listens_quiet asyncio parse server h rfl
    exact .inl ⟨by simp_all, by simp⟩
  | _ =>
    apply listens_quiet asyncio parse server h rfl
    exact .inl ⟨by simp_all, fun hnext => hnext⟩

theorem listens_run {events : List Event} {last : Process}
    (h : Run (Step asyncio parse server context) (initial context) events last) :
    Listens asyncio parse server events last := by
  induction h with
  | nil => exact ⟨fun _ => rfl, by simp [initial]⟩
  | snoc hrun hstep ih =>
    have horderly := orderly_run asyncio parse server context hrun
    exact listens_step asyncio parse server context horderly ih hstep

/-- A pool without coins and with one HTTP thread. -/
def emptyPool : PoolContext where
  isMaster := true
  databasePath := ""
  smtpAddress := none
  coinList := []
  backends := []
  algoMetaStatistic := []
  threadPool := 1
  totalThreadsNum := 4
  instances := []
  httpServer := ⟨0, 1⟩

/-- A signal interrupts the pool while its HTTP thread runs. -/
theorem emptyPool_interrupted : ∃ events last http,
    Run (Step asyncio parse server emptyPool) (initial emptyPool) events last ∧ Alive last ∧
      last.interrupted = true ∧ last.httpServer = some http ∧ .running ∈ http.threads ∧
        http.listening.accepts = 1 := by
  let starts : List Call := [.start .threadPool, .start .userMgr, .start .httpServer]
  let called : Process := { main := .calls [], calls := starts.take 2 }
  let spawning : Process :=
    { main := .httpThreads 1, httpServer := some {}, calls := starts }
  let serving : Process :=
    { main := .monitorThread, httpServer := some { threads := [.running] }, calls := starts }
  let signals : Process :=
    { serving with main := .signals allSignals, monitor := some .running }
  let installed : Process :=
    { signals with main := .signals [.sigterm, .sigusr1], handlers := [.sigint] }
  have hpool : MainStep emptyPool (initial emptyPool)
      { main := .calls [.start .userMgr], calls := starts.take 1 } := .call rfl
  have husers : MainStep emptyPool
      { main := .calls [.start .userMgr], calls := starts.take 1 } called := .call rfl
  have hdone : MainStep emptyPool called { called with main := .httpStart } := .callsDone rfl
  have hlistens : MainStep emptyPool { called with main := .httpStart } spawning :=
    .httpListens rfl
  have hthread : MainStep emptyPool spawning { serving with main := .httpThreads 0 } :=
    @MainStep.httpThread emptyPool spawning 0 {} rfl rfl
  have hthreads : MainStep emptyPool { serving with main := .httpThreads 0 } serving :=
    .httpThreadsDone rfl
  have hmonitor : MainStep emptyPool serving signals := .monitorThread rfl
  have hsignal : MainStep emptyPool signals installed := .signal rfl
  have hrun : Run (Step asyncio parse server emptyPool) (initial emptyPool)
      (List.replicate 8 .main) installed :=
    (((((((Run.nil.snoc (.main ⟨rfl, by simp [initial]⟩ hpool)).snoc
      (.main ⟨rfl, by simp⟩ husers)).snoc (.main ⟨rfl, by simp [called]⟩ hdone)).snoc
      (.main ⟨rfl, by simp⟩ hlistens)).snoc (.main ⟨rfl, by simp [spawning]⟩ hthread)).snoc
      (.main ⟨rfl, by simp⟩ hthreads)).snoc (.main ⟨rfl, by simp [serving]⟩ hmonitor)).snoc
      (.main ⟨rfl, by simp [signals]⟩ hsignal)
  have hinterrupted : Step asyncio parse server emptyPool installed (.signal .sigint)
      { installed with interrupted := true } :=
    .handled ⟨rfl, by simp [installed]⟩ (List.mem_singleton_self _)
  exact ⟨_, _, { threads := [.running] }, hrun.snoc hinterrupted, ⟨rfl, by simp [installed]⟩, rfl,
    rfl, List.mem_singleton_self _, rfl⟩

section Runs

variable {asyncio parse server context} {events : List Event} {last : Process}

/-- In every run, whatever the signals and however the threads take turns, the HTTP server accepts,
reads and hears of its writes only while all services run and none has been stopped, and the
connections are those of a run of the listener. -/
theorem served_while_up
    (h : Run (Step asyncio parse server context) (initial context) events last) :
    (∀ e next, byCore e = false → Step asyncio parse server context last (.http e) next →
      last.calls = startCalls context ++ [.start .httpServer]) ∧
    ∀ http, last.httpServer = some http →
      Run (Listener.Step asyncio parse server) Listener.listening (httpEvents events)
        http.listening := by
  constructor
  · intro e next hown hstep
    cases hstep with
    | http _ started running _ =>
      exact calls_while_running context (orderly_run asyncio parse server context h) started
        (running hown)
  · exact (listens_run asyncio parse server context h).heard

theorem served_while_up_accepting : ∃ events last next,
    Run (Step plainCounting parseEmpty Server.emptyServer emptyPool) (initial emptyPool) events
      last ∧
      Step plainCounting parseEmpty Server.emptyServer emptyPool last (.http .accepted) next ∧
        last.calls = [.start .threadPool, .start .userMgr, .start .httpServer] := by
  obtain ⟨events, last, http, hrun, alive, -, hhttp, hrunning, haccepts⟩ :=
    emptyPool_interrupted plainCounting parseEmpty Server.emptyServer
  have hstep :
      Step plainCounting parseEmpty Server.emptyServer emptyPool last (.http .accepted) _ :=
    .http alive hhttp (fun _ => hrunning) (.accepted Listener.zeros haccepts)
  exact ⟨events, last, _, hrun, hstep, (served_while_up hrun).1 _ _ rfl hstep⟩

end Runs

end PoolProcess
