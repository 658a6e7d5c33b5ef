import PoolFrontend.AnswerCount
import PoolFrontend.Interleaving

/-!
# The listening socket and its connections

The accept callback makes a connection of every socket it is given and asks for the next one,
whether the last accept succeeded or not. Its connections live side by side, each from its own
events. What the threads of the server do is the order of the events.
-/
namespace Listener

open CallbackProgram CallbackReferences Json
open Server (Http)
open Router Routing
open Connection hiding Step Run run_keeps
open ConnectionRuns
open Lifetime hiding Step Run
open AnswerCount
open Interleaving hiding Label

variable (asyncio : ReferenceCounting) (parse : List UInt8 → Option Value)
  (server : Server.PoolHttpServer)

/-- The accepts that are pending on `ListenerSocket_`, and the connections so far. -/
structure Listening where
  accepts : Nat := 0
  connections : List Counting := []

def Listening.aioAccept (self : Listening) : Listening := { self with accepts := self.accepts + 1 }

/-- The content of a new connection's buffer is arbitrary. -/
def acceptCb (status : AsyncOpStatus) (buffer : Buffer) (self : Listening) : Listening :=
  if status = .aosSuccess then
    ({ self with
      connections := self.connections ++ [created asyncio buffer] } : Listening).aioAccept
  else self.aioAccept

@[simp] theorem acceptCb_accepts (status : AsyncOpStatus) (buffer : Buffer) (self : Listening) :
    (acceptCb asyncio status buffer self).accepts = self.accepts + 1 := by
  rw [acceptCb]
  split <;> rfl

theorem acceptCb_failed {status : AsyncOpStatus} (h : status ≠ .aosSuccess) (buffer : Buffer)
    (self : Listening) : (acceptCb asyncio status buffer self).connections = self.connections := by
  rw [acceptCb, if_neg h]
  rfl

/-- `PoolHttpServer::start` once the port is bound and listening. -/
def listening : Listening := ({} : Listening).aioAccept

inductive Event where
  | accepted
  | acceptFailed (status : AsyncOpStatus)
  | connection (i : Nat) (taken : Taken)

/-- A step of one connection, with its record. -/
def ConnectionStep (self : Counting) (taken : Taken) (next : Counting) : Prop :=
  taken.before = self.conn ∧ Lifetime.Step asyncio parse server self taken.event taken.seen next

inductive Step : Listening → Event → Listening → Prop
  | accepted {self : Listening} {n : Nat} (buffer : Buffer) (pending : self.accepts = n + 1) :
      Step self .accepted (acceptCb asyncio .aosSuccess buffer { self with accepts := n })
  | acceptFailed {self : Listening} {n : Nat} {status : AsyncOpStatus} (buffer : Buffer)
      (pending : self.accepts = n + 1) (failed : status ≠ .aosSuccess) :
      Step self (.acceptFailed status) (acceptCb asyncio status buffer { self with accepts := n })
  | connection {self : Listening} {i : Nat} {conn next : Counting} {taken : Taken}
      (found : self.connections[i]? = some conn)
      (step : ConnectionStep asyncio parse server conn taken next) :
      Step self (.connection i taken) { self with connections := self.connections.set i next }

/-- A failed accept leaves no trace in the connections. -/
def labelOf : Event → List (Interleaving.Label Taken)
  | .accepted => [.join]
  | .acceptFailed _ => []
  | .connection i taken => [.act i taken]

def labels (events : List Event) : List (Interleaving.Label Taken) := events.flatMap labelOf

/-- The events of one connection, in their order. -/
def takenBy (i : Nat) (events : List Event) : List Taken := labelsOf i (labels events)

def New (conn : Counting) : Prop := ∃ buffer, conn = created asyncio buffer

theorem labels_snoc (events : List Event) (e : Event) :
    labels (events ++ [e]) = labels events ++ labelOf e := by
  simp [labels, List.flatMap_append]

theorem run_labels {start last : Counting} {taken : List Taken} :
    Interleaving.Run (ConnectionStep asyncio parse server) start taken last ↔
      Lifetime.Run asyncio parse server start taken last := by
  constructor
  · intro h
    induction h with
    | nil => exact .nil
    | snoc _ hstep ih =>
      obtain ⟨hbefore, hstep⟩ := hstep
      rename_i label _
      obtain ⟨before, event, seen⟩ := label
      subst hbefore
      exact ih.snoc hstep
  · intro h
    induction h with
    | nil => exact .nil
    | snoc _ hstep ih => exact ih.snoc ⟨rfl, hstep⟩

/-- What a run of the server leaves: one accept pending, and for each accepted socket a
connection that its own events have brought to its state. -/
structure Served (events : List Event) (last : Listening) : Prop where
  accepting : last.accepts = 1
  failed : ∀ status, .acceptFailed status ∈ events → status ≠ .aosSuccess
  ordered : Ordered 0 (labels events)
  count : last.connections.length = joined (labels events)
  own : ∀ i conn, last.connections[i]? = some conn →
    ∃ buffer, Lifetime.Run asyncio parse server (created asyncio buffer) (takenBy i events) conn

/-- A run of the server is one of the system of its connections. -/
theorem server_system {events : List Event} {last : Listening}
    (h : Interleaving.Run (Step asyncio parse server) listening events last) :
    last.accepts = 1 ∧ (∀ status, .acceptFailed status ∈ events → status ≠ .aosSuccess) ∧
      Interleaving.Run (SystemStep (New asyncio) (ConnectionStep asyncio parse server)) []
        (labels events) last.connections := by
  induction h with
  | nil => exact ⟨rfl, by simp, .nil⟩
  | snoc _ hstep ih =>
    obtain ⟨haccepts, hfailed, hrun⟩ := ih
    rw [labels_snoc]
    cases hstep with
    | accepted buffer pending =>
      rw [haccepts] at pending
      refine ⟨?_, by simpa using hfailed, hrun.snoc (.join ⟨buffer, rfl⟩)⟩
      rw [acceptCb_accepts]
      exact pending.symm
    | acceptFailed buffer pending failed =>
      rw [haccepts] at pending
      rw [acceptCb_accepts, acceptCb_failed asyncio failed, labelOf, List.append_nil]
      refine ⟨pending.symm, ?_, hrun⟩
      intro status hstatus
      rcases List.mem_append.mp hstatus with hold | hnew
      · exact hfailed status hold
      · cases List.mem_singleton.mp hnew
        exact failed
    | connection found step =>
      exact ⟨haccepts, by simpa using hfailed, hrun.snoc (.act found step)⟩

/-- The server takes every run of that system, with accepts that fail in between. -/
theorem system_server {events : List Event} {connections : List Counting}
    (h : Interleaving.Run (SystemStep (New asyncio) (ConnectionStep asyncio parse server)) []
      (labels events) connections)
    (hfailed : ∀ status, .acceptFailed status ∈ events → status ≠ .aosSuccess) :
    Interleaving.Run (Step asyncio parse server) listening events ⟨1, connections⟩ := by
  induction events using List.reverseRecOn generalizing connections with
  | nil =>
    rw [h.of_nil]
    exact .nil
  | append_singleton events e ih =>
    have hbefore : ∀ status, .acceptFailed status ∈ events → status ≠ .aosSuccess :=
      fun status hstatus => hfailed status (List.mem_append_left _ hstatus)
    rw [labels_snoc] at h
    cases e with
    | accepted =>
      obtain ⟨mid, hmid, hstep⟩ := h.of_snoc
      cases hstep with
      | join fresh =>
        obtain ⟨buffer, rfl⟩ := fresh
        exact (ih hmid hbefore).snoc (.accepted buffer rfl)
    | acceptFailed status =>
      have hstatus : status ≠ .aosSuccess := hfailed status (by simp)
      rw [labelOf, List.append_nil] at h
      have hstep : Step asyncio parse server ⟨1, connections⟩ (.acceptFailed status)
          (acceptCb asyncio status ⟨.replicate bufferSize 0, List.length_replicate⟩
            ⟨0, connections⟩) :=
        .acceptFailed _ rfl hstatus
      rw [acceptCb, if_neg hstatus] at hstep
      exact (ih h hbefore).snoc hstep
    | connection i taken =>
      obtain ⟨mid, hmid, hstep⟩ := h.of_snoc
      cases hstep with
      | act found step => exact (ih hmid hbefore).snoc (.connection found step)

theorem served_of_run {events : List Event} {last : Listening}
    (h : Interleaving.Run (Step asyncio parse server) listening events last) :
    Served asyncio parse server events last := by
  obtain ⟨haccepts, hfailed, hrun⟩ := server_system asyncio parse server h
  obtain ⟨hordered, hcount, hcomponent⟩ := run_iff.mp hrun
  refine ⟨haccepts, hfailed, hordered, hcount, ?_⟩
  intro i conn hconn
  obtain ⟨start, ⟨buffer, rfl⟩, hown⟩ := hcomponent i conn hconn
  exact ⟨buffer, (run_labels asyncio parse server).mp hown⟩

/-- In every run of the server, in every order of accepts, failed accepts and events of any
connections, exactly one accept is pending, every accepted socket has a connection of its own,
and each connection is what its own events make of it. Every such order is possible. -/
theorem served_iff {events : List Event} {last : Listening} :
    Interleaving.Run (Step asyncio parse server) listening events last ↔
      Served asyncio parse server events last := by
  constructor
  · exact served_of_run asyncio parse server
  · rintro ⟨haccepts, hfailed, hordered, hcount, hown⟩
    obtain ⟨accepts, connections⟩ := last
    subst haccepts
    apply system_server asyncio parse server
    · apply run_iff.mpr
      refine ⟨hordered, hcount, ?_⟩
      intro i conn hconn
      obtain ⟨buffer, hrun⟩ := hown i conn hconn
      exact ⟨_, ⟨buffer, rfl⟩, (run_labels asyncio parse server).mpr hrun⟩
    · exact hfailed

theorem length_zeros : (List.replicate bufferSize (0 : UInt8)).length = bufferSize :=
  List.length_replicate

def zeros : Buffer := ⟨.replicate bufferSize 0, length_zeros⟩

/-- The first connection, and its first read. -/
theorem firstRead_run {a : Arrival} {seen : List Nat} {left : Nat}
    (arrives : Arrives parse server (PoolHttpConnection.run zeros) ⟨0, bufferSize⟩ a)
    (counted : CountedAll plainCounting
      (programsOf parse server (PoolHttpConnection.run zeros) a) 2 a.replies a.callbacks seen
      left) :
    Interleaving.Run (Step plainCounting parse server) listening
      [.accepted,
        .connection 0 ⟨PoolHttpConnection.run zeros, .readDone a, 2 :: (seen ++ [left])⟩]
      ⟨1, [⟨((PoolHttpConnection.run zeros).received ⟨0, bufferSize⟩ a.data).onRead parse a,
        afterParseReferences plainCounting (PoolHttpConnection.run zeros)
          (resultOf parse (PoolHttpConnection.run zeros) a) left - 1⟩]⟩ := by
  have hjoin : Step plainCounting parse server listening .accepted
      ⟨1, [⟨PoolHttpConnection.run zeros, 2⟩]⟩ := .accepted zeros rfl
  have hread := @Lifetime.Step.readDone plainCounting _ _ _ 2 _ _ _ _ _ rfl rfl arrives counted
  exact (Interleaving.Run.nil.snoc hjoin).snoc (.connection rfl ⟨rfl, hread⟩)

/-- The peer sends a body that is not JSON, takes the answer and goes away. -/
theorem invalidBody_run : ∃ events last conn,
    Interleaving.Run (Step plainCounting parseEmpty Server.emptyServer) listening events last ∧
      last.connections[0]? = some conn ∧ conn.conn.socket.deleted = true ∧ Idle conn.conn ∧
        ((takenBy 0 events).map fun taken =>
          owed parseEmpty taken.before taken.event).sum = 1 := by
  let start := PoolHttpConnection.run zeros
  let answered := (start.received ⟨0, bufferSize⟩ invalidBody.data).onRead parseEmpty invalidBody
  let written := { answered with socket := { answered.socket with writes := [] } }.onWrite
  let closed := { written with socket := { written.socket with reads := [] } }.close
  have hread := invalidBody_arrives Server.emptyServer zeros
  have hwritten : ConnectionStep plainCounting parseEmpty Server.emptyServer ⟨answered, 2⟩
      ⟨answered, .written .aosSuccess, [2, 2]⟩ ⟨written, 2⟩ :=
    ⟨rfl, .written rfl fun hdeleted => by cases hdeleted⟩
  have hclosed : ConnectionStep plainCounting parseEmpty Server.emptyServer ⟨written, 2⟩
      ⟨written, .readFailed (.other 1), [2]⟩ ⟨closed, 0⟩ := ⟨rfl, .readFailed rfl (by simp)⟩
  have hcounted : CountedAll plainCounting
      (programsOf parseEmpty Server.emptyServer start invalidBody) 2 invalidBody.replies
      invalidBody.callbacks [2] 3 := by
    rw [programsOf, show start.context = {} from rfl, invalidBody_delivered]
    exact countedAll_write _ 2
  have hfirst := firstRead_run _ _ hread hcounted
  have hsecond : Step plainCounting parseEmpty Server.emptyServer ⟨1, [⟨answered, 2⟩]⟩
      (.connection 0 ⟨answered, .written .aosSuccess, [2, 2]⟩) ⟨1, [⟨written, 2⟩]⟩ :=
    .connection rfl hwritten
  have hthird : Step plainCounting parseEmpty Server.emptyServer ⟨1, [⟨written, 2⟩]⟩
      (.connection 0 ⟨written, .readFailed (.other 1), [2]⟩) ⟨1, [⟨closed, 0⟩]⟩ :=
    .connection rfl hclosed
  have hrun := (hfirst.snoc hsecond).snoc hthird
  exact ⟨_, _, _, hrun, rfl, rfl, ⟨rfl, rfl, rfl⟩, rfl⟩

section Connections

variable {asyncio : ReferenceCounting} {events : List Event} {last : Listening} {i : Nat}
  {conn : Counting}

/-- Where each operation holds a reference until its callback has returned, no statement of any
connection finds its object gone, no object is deleted twice, and a connection is freed exactly
when it has been closed and nothing of it is under way any more. -/
theorem freed_iff_closed (hasyncio : asyncio.Lawful)
    (h : Interleaving.Run (Step asyncio parse server) listening events last)
    (hconn : last.connections[i]? = some conn) :
    (∀ taken ∈ takenBy i events, ∀ n ∈ taken.seen, 0 < n) ∧ deletions conn.conn ≤ 1 ∧
      (Freed conn ↔ conn.conn.socket.deleted = true ∧ Idle conn.conn) := by
  obtain ⟨buffer, hrun⟩ := (served_of_run asyncio parse server h).own i conn hconn
  exact freed_when_closed parse server hasyncio hrun

theorem invalidBody_freed : ∃ events last conn,
    Interleaving.Run (Step plainCounting parseEmpty Server.emptyServer) listening events last ∧
      last.connections[0]? = some conn ∧ Freed conn ∧ deletions conn.conn ≤ 1 ∧
        ∀ taken ∈ takenBy 0 events, ∀ n ∈ taken.seen, 0 < n := by
  obtain ⟨events, last, conn, hrun, hconn, hdeleted, hidle, -⟩ := invalidBody_run
  obtain ⟨hseen, hdeletions, hfreed⟩ := freed_iff_closed _ _ plainCounting_lawful hrun hconn
  exact ⟨events, last, conn, hrun, hconn, hfreed.mpr ⟨hdeleted, hidle⟩, hdeletions, hseen⟩

/-- The requests that have ended on a connection are those it has answered on its socket and
those whose callback still waits, of which there is at most one: whatever the other connections
do, no answer is lost and none is sent twice. -/
theorem answers_kept (h : Interleaving.Run (Step asyncio parse server) listening events last)
    (hconn : last.connections[i]? = some conn) :
    ((takenBy i events).map fun taken => owed parse taken.before taken.event).sum =
      replied conn.conn + conn.conn.callbacks.length ∧ conn.conn.callbacks.length ≤ 1 := by
  obtain ⟨buffer, hrun⟩ := (served_of_run asyncio parse server h).own i conn hconn
  have hcount := answers_conserved parse server (run_connection parse server hrun)
  simpa [List.map_map, Function.comp_def] using hcount

theorem invalidBody_answered : ∃ events last conn,
    Interleaving.Run (Step plainCounting parseEmpty Server.emptyServer) listening events last ∧
      last.connections[0]? = some conn ∧ replied conn.conn = 1 := by
  obtain ⟨events, last, conn, hrun, hconn, -, hidle, hsum⟩ := invalidBody_run
  obtain ⟨hcount, -⟩ := answers_kept _ _ hrun hconn
  refine ⟨events, last, conn, hrun, hconn, ?_⟩
  rw [hsum, hidle.callbacks] at hcount
  exact hcount.symm

end Connections

end Listener
