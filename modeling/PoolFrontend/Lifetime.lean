import PoolFrontend.CallbackReferences
import PoolFrontend.ConnectionRuns

/-!
# The lifetime of a connection

The socket object is created with one reference, which `deleteAioObject` gives up. An operation
holds one until its callback has returned, and a handler those it takes. With the last one the
destructor callback of the object deletes the connection. A counted run is a run of the
connection with the references its statements find.
-/
namespace Lifetime

open CallbackProgram CallbackRuns CallbackActivation CallbackReferences
open Json Poolcore RequestFields
open Server hiding aioWrite
open UserHandlers BackendHandlers Router Routing Endpoints
open Connection hiding Step Run run_keeps
open Connection.PoolHttpConnection ConnectionRuns
open Handler (program)

variable (asyncio : ReferenceCounting) (parse : List UInt8 → Option Value)
  (server : PoolHttpServer)

structure Counting where
  conn : PoolHttpConnection
  references : Nat

/-- `newSocketIo`, the constructor and `run`. -/
def created (buffer : Buffer) : Counting :=
  ⟨run buffer, asyncio.started asyncio.created⟩

/-- `close` gives up the reference of the owner the first time it is called. -/
def closeReferences (conn : PoolHttpConnection) (references : Nat) : Nat :=
  if conn.deleted = 0 then asyncio.deleted references else references

/-- The references after the switch of `onRead`. -/
def afterParseReferences (conn : PoolHttpConnection) (result : ParserResult)
    (references : Nat) : Nat :=
  match result with
  | .ok => references
  | .needMoreData => asyncio.started references
  | .error => closeReferences asyncio conn references
  | .cancelled => closeReferences asyncio conn references

/-- The result `onRead` switches on. -/
def resultOf (conn : PoolHttpConnection) (a : Arrival) : ParserResult :=
  if declines parse conn.context a.outcome.components then .cancelled else a.outcome.result

/-- The programs of the actions that a parse sets off. -/
def programsOf (conn : PoolHttpConnection) (a : Arrival) : List (Program Http) :=
  (deliver parse conn.context a.outcome.components).2.map fun action =>
    (action.handler server).program

/-- A step with the counts that its statements find. The reference of a completed operation is
given up when its callback has returned. -/
inductive Step : Counting → Connection.Event → List Nat → Counting → Prop
  | readDone {self : PoolHttpConnection} {n left : Nat} {seen : List Nat} {read : Read}
      {reads : List Read} {a : Arrival} (pending : self.socket.reads = read :: reads)
      (present : self.socket.deleted = false) (arrives : Arrives parse server self read a)
      (counted : CountedAll asyncio (programsOf parse server self a) n a.replies a.callbacks seen
        left) :
      Step ⟨self, n⟩ (.readDone a) (n :: (seen ++ [left]))
        ⟨(self.received read a.data).onRead parse a,
          asyncio.returned (afterParseReferences asyncio self (resultOf parse self a) left)⟩
  | readFailed {self : PoolHttpConnection} {n : Nat} {read : Read} {reads : List Read}
      {status : AsyncOpStatus} (pending : self.socket.reads = read :: reads)
      (failed : status ≠ .aosSuccess) :
      Step ⟨self, n⟩ (.readFailed status) [n]
        ⟨{ self with socket := { self.socket with reads := reads } }.close,
          asyncio.returned (closeReferences asyncio self n)⟩
  | written {self : PoolHttpConnection} {n : Nat} {reply : Reply} {writes : List Reply}
      {status : AsyncOpStatus} (pending : self.socket.writes = reply :: writes)
      (cancelled : self.socket.deleted = true → status ≠ .aosSuccess) :
      Step ⟨self, n⟩ (.written status) [n, n]
        ⟨{ self with socket := { self.socket with writes := writes } }.onWrite,
          asyncio.returned (asyncio.started n)⟩
  | answered {self : PoolHttpConnection} {n left : Nat} {seen : List Nat}
      {callback : Callback Http} {before after callbacks : List (Callback Http)}
      {replies : List Reply} (waiting : self.callbacks = before ++ callback :: after)
      (x : Http.Answer callback.call)
      (counted : Counted asyncio (callback.onAnswer x) n replies callbacks seen left) :
      Step ⟨self, n⟩ (.answered callback) seen
        ⟨{ self with callbacks := before ++ after }.leave replies callbacks, left⟩

/-- What a step of a run started from, its event and the counts it found. -/
structure Taken where
  before : PoolHttpConnection
  event : Connection.Event
  seen : List Nat

inductive Run (start : Counting) : List Taken → Counting → Prop
  | nil : Run start [] start
  | snoc {mid last : Counting} {steps : List Taken} {e : Connection.Event} {seen : List Nat} :
      Run start steps mid → Step asyncio parse server mid e seen last →
      Run start (steps ++ [⟨mid.conn, e, seen⟩]) last

/-- The connection has been deleted. -/
def Freed (counting : Counting) : Prop := counting.references = 0

/-- No operation is under way, and no callback waits. -/
structure Idle (conn : PoolHttpConnection) : Prop where
  reads : conn.socket.reads = []
  writes : conn.socket.writes = []
  callbacks : conn.callbacks = []

variable {asyncio}

theorem step_connection {self next : Counting} {e : Connection.Event} {seen : List Nat}
    (h : Step asyncio parse server self e seen next) :
    Connection.Step parse server self.conn e next.conn := by
  cases h with
  | readDone pending present arrives counted => exact .readDone pending present arrives
  | readFailed pending failed => exact .readFailed pending failed
  | written pending cancelled => exact .written pending cancelled
  | answered waiting x counted => exact .answered waiting x (counted_executes counted)

/-- Every step of a connection can be counted. -/
theorem connection_step {self next : PoolHttpConnection} {e : Connection.Event}
    (h : Connection.Step parse server self e next) (n : Nat) :
    ∃ seen left, Step asyncio parse server ⟨self, n⟩ e seen ⟨next, left⟩ := by
  cases h with
  | readDone pending present arrives =>
    obtain ⟨seen, left, hcount⟩ := executesAll_counted arrives.executes n
    exact ⟨_, _, .readDone pending present arrives hcount⟩
  | readFailed pending failed => exact ⟨_, _, .readFailed pending failed⟩
  | written pending cancelled => exact ⟨_, _, .written pending cancelled⟩
  | answered waiting x executes =>
    obtain ⟨seen, left, hcount⟩ := executes_counted executes n
    exact ⟨_, _, .answered waiting x hcount⟩

/-- The counted runs are the runs of the connection. -/
theorem connection_run {start : Counting} {steps : List (PoolHttpConnection × Connection.Event)}
    {last : PoolHttpConnection} (h : Connection.Run parse server start.conn steps last) :
    ∃ taken left, Run asyncio parse server start taken ⟨last, left⟩ ∧
      taken.map (fun t => (t.before, t.event)) = steps := by
  obtain ⟨conn, references⟩ := start
  induction h with
  | nil => exact ⟨[], references, .nil, rfl⟩
  | snoc _ hstep ih =>
    obtain ⟨taken, mid, hrun, htaken⟩ := ih
    obtain ⟨seen, left, hcount⟩ := connection_step parse server hstep mid
    refine ⟨_, left, hrun.snoc hcount, ?_⟩
    rw [List.map_append, htaken]
    rfl

theorem run_connection {start last : Counting} {steps : List Taken}
    (h : Run asyncio parse server start steps last) :
    Connection.Run parse server start.conn (steps.map fun t => (t.before, t.event)) last.conn := by
  induction h with
  | nil => exact .nil _
  | snoc _ hstep ih =>
    rw [List.map_append]
    exact ih.snoc (step_connection parse server hstep)

theorem userBalance_owns {ms : Members}
    (h : AsksNoDatabase server ((sessionTargetCoinMembers ms).map fun fields => fields.2.2)) :
    Owns True 0 (onBackendQueryUserBalance server (.object ms)).program := by
  obtain ⟨hcoin, hbackends⟩ := h
  rw [onBackendQueryUserBalance, withFields_sessionTargetCoin]
  cases hf : sessionTargetCoinMembers ms with
  | none => simp [hf] at hcoin
  | some fields =>
    obtain ⟨sessionId, targetLogin, coin⟩ := fields
    have hcoin : coin = "" := by simpa [hf] using hcoin
    refine ⟨.inl trivial, ?_⟩
    intro x
    cases x <;> simp [hcoin, hbackends, Owns]

theorem poolStats_owns {ms : Members} (h : AsksNoDatabase server (stringOr ms "coin" "")) :
    Owns True 0 (onBackendQueryPoolStats server (.object ms)).program := by
  obtain ⟨hcoin, hbackends⟩ := h
  rw [onBackendQueryPoolStats, withFields_stringOr, hcoin]
  simp [accepted, program, hbackends, Owns]

theorem pplnsAcc_owns {ms : Members} (h : GuardUndefined server ms) :
    Owns True 0 (onBackendQueryPPLNSAcc server (.object ms)).program := by
  obtain ⟨sessionId, targetLogin, coin, timeFrom, timeTo, groupByInterval, hfields, hbackend,
    hguard⟩ := h
  obtain ⟨backend, hb⟩ := Option.isSome_iff_exists.mp hbackend
  have hnone := (invalidInterval_none_iff timeFrom timeTo groupByInterval).mpr hguard
  rw [onBackendQueryPPLNSAcc, withFields_pplnsAcc, hfields]
  refine ⟨.inl trivial, ?_⟩
  intro x
  cases x <;> simp [hb, hnone, Owns]

/-- Every endpoint hands on the references it takes, with or without an undefined operation. -/
theorem dispatch_owns (f : FunctionTy) (ms : Members) :
    Owns True 0 (dispatch server f (.object ms)).program := by
  by_cases h : Undefined server ms f
  · cases f with
    | fnBackendQueryUserBalance => exact userBalance_owns server h
    | fnBackendQueryPoolStats => exact poolStats_owns server h
    | fnBackendQueryPPLNSAcc => exact pplnsAcc_owns server h
    | _ => exact h.elim
  · exact inPhase_owns ((dispatch_orderly server ms f).answers h) fun _ => trivial

theorem write_owns (m : Reply) : Owns True 0 (.write m .done : Program Http) :=
  ⟨.inl trivial, rfl⟩

theorem onDataLast_owns (f : FunctionTy) (request : List UInt8) :
    Owns True 0 ((onDataLast parse f request).1.handler server).program := by
  rw [onDataLast_action]
  cases requestObject parse request with
  | none => exact write_owns _
  | some ms =>
    dsimp only
    split
    · exact dispatch_owns server f ms
    · exact write_owns _

/-- What holds of the 404 answer and of the end of every body holds of every action. -/
theorem deliver_programs {P : Program Http → Prop} (hnotFound : P (.write .reply404 .done))
    (hlast : ∀ f request, P ((onDataLast parse f request).1.handler server).program)
    (context : Context) (cs : List Component) :
    ∀ action ∈ (deliver parse context cs).2, P (action.handler server).program := by
  induction cs generalizing context with
  | nil => simp [deliver]
  | cons c cs ih =>
    have hfirst : ∀ action ∈ (onParse parse context c).action,
        P (action.handler server).program := by
      intro action haction
      by_cases hend : ∃ d, c = .dataLast d
      · obtain ⟨d, rfl⟩ := hend
        have heq : (onDataLast parse context.function (context.request ++ d)).1 = action := by
          simpa [onParse] using haction
        rw [← heq]
        exact hlast _ _
      · rw [onParse_front parse (fun d hd => hend ⟨d, hd⟩)] at haction
        have heq : .reply404 = action := by
          split at haction
          · cases haction
          · simpa using haction
        rw [← heq]
        exact hnotFound
    intro action haction
    rw [deliver] at haction
    split at haction
    · rcases List.mem_append.mp haction with hnow | hlater
      · exact hfirst action (Option.mem_toList.mp hnow)
      · exact ih _ action hlater
    · exact hfirst action (Option.mem_toList.mp haction)

theorem programs_own (conn : PoolHttpConnection) (a : Arrival) :
    ∀ p ∈ programsOf parse server conn a, Owns True 0 p := by
  intro p hp
  obtain ⟨action, haction, rfl⟩ := List.mem_map.mp hp
  exact deliver_programs parse server (write_owns _) (onDataLast_owns parse server) _ _ action
    haction

section Pending

variable (self : PoolHttpConnection) (replies : List Reply) (callbacks : List (Callback Http))

@[simp] theorem leave_socket_writes :
    (self.leave replies callbacks).socket.writes = self.socket.writes ++ replies := by
  rw [leave]
  show (replies.foldl PoolHttpConnection.aioWrite self).socket.writes = _
  induction replies generalizing self with
  | nil => exact (List.append_nil _).symm
  | cons reply replies ih => simp [ih]

@[simp] theorem leave_callbacks :
    (self.leave replies callbacks).callbacks = self.callbacks ++ callbacks := by
  rw [leave]
  show (replies.foldl PoolHttpConnection.aioWrite self).callbacks ++ callbacks = _
  congr 1
  induction replies generalizing self with
  | nil => rfl
  | cons reply replies ih => simp [ih]

@[simp] theorem close_socket_writes : self.close.socket.writes = self.socket.writes := by
  rw [close]
  split <;> rfl

@[simp] theorem close_callbacks : self.close.callbacks = self.callbacks := by
  rw [close]
  split <;> rfl

end Pending

/-- The references the object itself, its operations and its callbacks hold. -/
def held (conn : PoolHttpConnection) : Nat :=
  (if conn.socket.deleted then 0 else 1) + conn.socket.reads.length +
    conn.socket.writes.length + conn.callbacks.length

/-- The invariant: nothing else holds a reference, and a callback owns the one it holds. -/
structure Balanced (counting : Counting) : Prop where
  count : counting.references = held counting.conn
  owned : ∀ w ∈ counting.conn.callbacks, ∀ x, Owns False 1 (w.onAnswer x)
  closed : counting.conn.deleted = 0 ↔ counting.conn.socket.deleted = false

theorem balanced_created (hasyncio : asyncio.Lawful) (buffer : Buffer) :
    Balanced (created asyncio buffer) := by
  constructor
  · simp [created, hasyncio.started, hasyncio.created, held, run, PoolHttpConnection.aioRead,
      calling]
  · simp [created, run, PoolHttpConnection.aioRead, calling]
  · simp [created, run, PoolHttpConnection.aioRead, calling]

/-- Closing gives up exactly the reference of the owner. -/
theorem close_held (hasyncio : asyncio.Lawful) {self : PoolHttpConnection}
    (h : self.deleted = 0 ↔ self.socket.deleted = false) :
    held self.close = closeReferences asyncio self (held self) ∧
      (self.close.deleted = 0 ↔ self.close.socket.deleted = false) := by
  by_cases hopen : self.deleted = 0
  · have hpresent := h.mp hopen
    simp [close, closeReferences, held, hopen, hpresent, hasyncio.deleted]
    omega
  · have hgone : self.socket.deleted = true := by simpa using fun hp => hopen (h.mpr hp)
    simp [close, closeReferences, held, hopen, hgone]

/-- The switch of `onRead` keeps the balance, once the handlers have left theirs. -/
theorem balanced_afterParse (hasyncio : asyncio.Lawful) {self : PoolHttpConnection} {left : Nat}
    (hcount : left = held self + 1)
    (howned : ∀ w ∈ self.callbacks, ∀ x, Owns False 1 (w.onAnswer x))
    (hclosed : self.deleted = 0 ↔ self.socket.deleted = false) (result : ParserResult)
    (window : List UInt8) (remaining : Nat) (copied : List UInt8) :
    Balanced ⟨self.afterParse result window remaining copied,
      asyncio.returned (afterParseReferences asyncio self result left)⟩ := by
  obtain ⟨hheld, hafter⟩ := close_held hasyncio hclosed
  cases result with
  | ok =>
    refine ⟨?_, howned, hclosed⟩
    show asyncio.returned left = held self
    rw [hasyncio.returned]
    omega
  | needMoreData =>
    refine ⟨?_, howned, hclosed⟩
    simp [afterParse, afterParseReferences, held, hcount, hasyncio.started, hasyncio.returned]
    omega
  | error | cancelled =>
    refine ⟨?_, by simpa [afterParse] using howned, hafter⟩
    show asyncio.returned (closeReferences asyncio self left) = held self.close
    rw [hheld, closeReferences, closeReferences, hcount, hasyncio.returned]
    split
    · rw [hasyncio.deleted, hasyncio.deleted]
      omega
    · omega

/-- Replies and callbacks hold one reference each. -/
theorem held_leave (self : PoolHttpConnection) (replies : List Reply)
    (callbacks : List (Callback Http)) :
    held (self.leave replies callbacks) = held self + replies.length + callbacks.length := by
  simp only [held, leave_socket_deleted, leave_socket_reads, leave_socket_writes,
    leave_callbacks, List.length_append]
  omega

theorem held_received {self : PoolHttpConnection} {read : Read} {reads : List Read}
    (pending : self.socket.reads = read :: reads) (data : List UInt8) :
    held self = held (self.received read data) + 1 := by
  simp [held, pending]
  omega

/-- The handlers of a parse leave the balance to the switch of `onRead`. -/
theorem balanced_onRead (hasyncio : asyncio.Lawful) {self : PoolHttpConnection}
    {n left : Nat} {seen : List Nat} {read : Read} {reads : List Read} {a : Arrival}
    (h : Balanced ⟨self, n⟩)
    (pending : self.socket.reads = read :: reads)
    (counted : CountedAll asyncio (programsOf parse server self a) n a.replies a.callbacks seen
      left) :
    Balanced ⟨(self.received read a.data).onRead parse a,
      asyncio.returned (afterParseReferences asyncio self (resultOf parse self a) left)⟩ ∧
      ∀ k ∈ n :: (seen ++ [left]), 0 < k := by
  have hcount : n = held (self.received read a.data) + 1 := by
    rw [← held_received pending]
    exact h.count
  have hpositive : 0 < n := by omega
  obtain ⟨hseen, hleft, howned⟩ :=
    countedAll_owned (programs_own parse server self a) hasyncio hpositive counted
  have hparsed : left = held ((self.received read a.data).parsed parse a) + 1 := by
    rw [parsed, held_leave, hleft, hcount]
    show _ = held (self.received read a.data) + _ + _ + 1
    omega
  have hcallbacks : ∀ w ∈ ((self.received read a.data).parsed parse a).callbacks, ∀ x,
      Owns False 1 (w.onAnswer x) := by
    intro w hw
    simp only [parsed, leave_callbacks, received_callbacks] at hw
    rcases List.mem_append.mp hw with hold | hnew
    · exact h.owned w hold
    · exact howned w hnew
  have hclosed : ((self.received read a.data).parsed parse a).deleted = 0 ↔
      ((self.received read a.data).parsed parse a).socket.deleted = false := by
    simpa [parsed] using h.closed
  have hreferences : afterParseReferences asyncio self (resultOf parse self a) left =
      afterParseReferences asyncio ((self.received read a.data).parsed parse a)
        (resultOf parse self a) left := by
    simp [afterParseReferences, closeReferences, parsed]
  constructor
  · rw [hreferences]
    exact balanced_afterParse hasyncio hparsed hcallbacks hclosed _ _ _ _
  · have hlast : 0 < left := by omega
    simpa [hpositive, hlast, or_imp, forall_and] using hseen

/-- The step lemma: no statement finds the object gone, and the balance is kept. -/
theorem balanced_step (hasyncio : asyncio.Lawful) {self next : Counting}
    {e : Connection.Event} {seen : List Nat}
    (h : Balanced self) (hstep : Step asyncio parse server self e seen next) :
    Balanced next ∧ ∀ n ∈ seen, 0 < n := by
  have hcount := h.count
  cases hstep with
  | readDone pending present arrives counted =>
    exact balanced_onRead parse server hasyncio h pending counted
  | @readFailed self n read reads status pending failed =>
    have hclose := @close_held asyncio hasyncio
      { self with socket := { self.socket with reads := reads } } h.closed
    simp only [held, pending, List.length_cons] at hcount
    refine ⟨⟨?_, by simpa using h.owned, hclose.2⟩, by simp; omega⟩
    rw [hclose.1]
    simp only [closeReferences, held, hasyncio.returned, hasyncio.deleted]
    split <;> omega
  | @written self n reply writes status pending cancelled =>
    simp only [held, pending, List.length_cons] at hcount
    refine ⟨⟨?_, h.owned, h.closed⟩, by simp; omega⟩
    simp [onWrite, socketShutdown, held, hasyncio.started, hasyncio.returned]
    omega
  | @answered self n left seen callback before after callbacks replies waiting x counted =>
    have howner : Owns False 1 (callback.onAnswer x) := h.owned callback (by simp [waiting]) x
    have hbefore : n = held { self with callbacks := before ++ after } + 1 := by
      simp only [held, waiting, List.length_append, List.length_cons] at hcount ⊢
      omega
    obtain ⟨hseen, hleft, howned⟩ :=
      counted_owned howner hasyncio (fun hfalse => hfalse.elim) hbefore counted
    refine ⟨⟨?_, ?_, by simpa using h.closed⟩, hseen⟩
    · rw [held_leave]
      exact hleft
    · intro w hw
      rw [leave_callbacks] at hw
      rcases List.mem_append.mp hw with hold | hnew
      · have hwaited : w ∈ self.callbacks := by
          rw [waiting]
          exact List.mem_append.mpr ((List.mem_append.mp hold).imp_right (List.mem_cons_of_mem _))
        exact h.owned w hwaited
      · exact howned w hnew

/-- The run lemma. -/
theorem balanced_run (hasyncio : asyncio.Lawful) {start last : Counting} {steps : List Taken}
    (h : Run asyncio parse server start steps last) (hstart : Balanced start) :
    Balanced last ∧ ∀ taken ∈ steps, ∀ n ∈ taken.seen, 0 < n := by
  induction h with
  | nil => exact ⟨hstart, by simp⟩
  | snoc _ hstep ih =>
    obtain ⟨hmid, hearlier⟩ := ih
    obtain ⟨hlast, hseen⟩ := balanced_step parse server hasyncio hmid hstep
    refine ⟨hlast, ?_⟩
    intro taken htaken
    rcases List.mem_append.mp htaken with hold | hnew
    · exact hearlier taken hold
    · rw [List.mem_singleton.mp hnew]
      exact hseen

theorem balanced_freed {counting : Counting} (h : Balanced counting) :
    Freed counting ↔ counting.conn.socket.deleted = true ∧ Idle counting.conn := by
  have hcount := h.count
  rw [held] at hcount
  constructor
  · intro hfreed
    rw [Freed] at hfreed
    have hdeleted : counting.conn.socket.deleted = true := by
      by_contra hpresent
      rw [if_neg hpresent] at hcount
      omega
    rw [if_pos hdeleted] at hcount
    refine ⟨hdeleted, ?_, ?_, ?_⟩ <;> apply List.eq_nil_of_length_eq_zero <;> omega
  · rintro ⟨hdeleted, hreads, hwrites, hcallbacks⟩
    simpa [Freed, hdeleted, hreads, hwrites, hcallbacks] using hcount

def isDelete : SocketCall × Socket → Bool
  | (.deleteAioObject, _) => true
  | _ => false

/-- How often the socket object was deleted. -/
def deletions (conn : PoolHttpConnection) : Nat := conn.calls.countP isDelete

theorem leave_deletions (self : PoolHttpConnection) (replies : List Reply)
    (callbacks : List (Callback Http)) :
    deletions (self.leave replies callbacks) = deletions self := by
  apply leave_keeps
  · intro conn reply
    simp [deletions, isDelete]
  · intro conn callbacks
    rfl

/-- The object is deleted once, when `Deleted_` leaves zero. -/
structure DeletedOnce (conn : PoolHttpConnection) : Prop where
  count : deletions conn = if conn.socket.deleted then 1 else 0
  closed : conn.deleted = 0 ↔ conn.socket.deleted = false

theorem deletedOnce_close {self : PoolHttpConnection} (h : DeletedOnce self) :
    DeletedOnce self.close := by
  have hcount := h.count
  by_cases hopen : self.deleted = 0
  · have hpresent := h.closed.mp hopen
    constructor
    · simpa [close, hopen, deletions, isDelete, hpresent] using hcount
    · simp [close, hopen]
  · have hgone : self.socket.deleted = true := by simpa using fun hp => hopen (h.closed.mpr hp)
    constructor
    · simpa [close, hopen, deletions, hgone] using hcount
    · simp [close, hopen, hgone]

theorem deletedOnce_leave {self : PoolHttpConnection} (h : DeletedOnce self)
    (replies : List Reply) (callbacks : List (Callback Http)) :
    DeletedOnce (self.leave replies callbacks) := by
  constructor
  · rw [leave_deletions, leave_socket_deleted]
    exact h.count
  · simpa using h.closed

theorem deletedOnce_step {self next : PoolHttpConnection} {e : Connection.Event}
    (h : DeletedOnce self) (hstep : Connection.Step parse server self e next) :
    DeletedOnce next := by
  cases hstep with
  | @readDone read reads a pending present arrives =>
    have hparsed : DeletedOnce ((self.received read a.data).parsed parse a) := by
      apply deletedOnce_leave
      exact ⟨h.count, h.closed⟩
    rw [onRead]
    generalize (if declines parse (self.received read a.data).context a.outcome.components = true
      then ParserResult.cancelled else a.outcome.result) = result
    cases result with
    | ok => exact ⟨hparsed.count, hparsed.closed⟩
    | needMoreData =>
      refine ⟨?_, hparsed.closed⟩
      simpa [afterParse, deletions, isDelete] using hparsed.count
    | error | cancelled => exact deletedOnce_close hparsed
  | readFailed pending failed => exact deletedOnce_close ⟨h.count, h.closed⟩
  | written pending cancelled =>
    refine ⟨?_, h.closed⟩
    simpa [onWrite, socketShutdown, deletions, isDelete] using h.count
  | answered waiting x executes =>
    apply deletedOnce_leave
    exact ⟨h.count, h.closed⟩

/-- No statement of a run finds the object gone, the object is deleted at most once, and the
connection is freed exactly when that has happened and nothing is under way any more. -/
theorem freed_when_closed (hasyncio : asyncio.Lawful) {buffer : Buffer} {steps : List Taken}
    {last : Counting}
    (h : Run asyncio parse server (created asyncio buffer) steps last) :
    (∀ taken ∈ steps, ∀ n ∈ taken.seen, 0 < n) ∧ deletions last.conn ≤ 1 ∧
      (Freed last ↔ last.conn.socket.deleted = true ∧ Idle last.conn) := by
  obtain ⟨hbalanced, hseen⟩ :=
    balanced_run parse server hasyncio h (balanced_created hasyncio buffer)
  have hstart : DeletedOnce (run buffer) :=
    ⟨by simp [deletions, isDelete, run, PoolHttpConnection.aioRead, calling],
      by simp [run, PoolHttpConnection.aioRead, calling]⟩
  have honce : DeletedOnce last.conn :=
    Connection.run_keeps DeletedOnce (fun _ _ => True)
      (fun _ _ _ hmid _ hstep => deletedOnce_step parse server hmid hstep)
      (run_connection parse server h) hstart fun _ _ => trivial
  refine ⟨hseen, ?_, balanced_freed hbalanced⟩
  rw [honce.count]
  split <;> decide

end Lifetime
