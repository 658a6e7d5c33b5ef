import PoolFrontend.Listener
import PoolFrontend.ReplyForms

/-!
# Replies in the order of their requests

A connection sets off its actions in the order in which its requests end. Each reply on the
socket is one that the action in its place can give, and what has not been answered yet is the
last action, whose callback waits.
-/
namespace AnswerOrder

open CallbackProgram CallbackRuns CallbackActivation CallbackReferences CallbackMessages Json
open Server hiding aioWrite
open Router Routing ReplyForms
open Connection hiding Step Run run_keeps Event
open Connection.PoolHttpConnection ConnectionRuns Lifetime AnswerCount Listener
open Handler (program)

variable (parse : List UInt8 → Option Value) (server : PoolHttpServer)

/-- The reply has a form of the function that was invoked. -/
def Says (action : Action) (reply : Reply) : Prop := Admitted (formsOf action) reply

def written : SocketCall × Socket → Option Reply
  | (.aioWrite reply, _) => some reply
  | _ => none

/-- The replies handed to the socket, the oldest first. -/
def sent (conn : PoolHttpConnection) : List Reply := conn.calls.filterMap written

theorem leave_sent (self : PoolHttpConnection) (replies : List Reply)
    (callbacks : List (Callback Http)) :
    sent (self.leave replies callbacks) = sent self ++ replies := by
  rw [leave]
  show sent (replies.foldl PoolHttpConnection.aioWrite self) = _
  induction replies generalizing self with
  | nil => exact (List.append_nil _).symm
  | cons reply replies ih =>
    rw [List.foldl_cons, ih]
    simp [sent, written]

theorem close_sent (self : PoolHttpConnection) : sent self.close = sent self := by
  rw [close]
  split
  · simp [sent, written]
  · rfl

theorem afterParse_sent (self : PoolHttpConnection) (result : ParserResult)
    (window : List UInt8) (remaining : Nat) (copied : List UInt8) :
    sent (self.afterParse result window remaining copied) = sent self := by
  cases result with
  | ok => rfl
  | needMoreData => simp [afterParse, sent, written]
  | error | cancelled => exact close_sent self

theorem close_actions (self : PoolHttpConnection) : self.close.actions = self.actions := by
  rw [close]
  split <;> rfl

/-- The invariant: the replies and the callbacks of a connection stand for its actions. -/
def InOrder (conn : PoolHttpConnection) : Prop :=
  Paired Says conn.actions (sent conn) conn.callbacks

theorem action_writes (action : Action) :
    Writes (Says action) (action.handler server).program :=
  sends_program (action_forms server action)

/-- A parse ends at most one request; its handler answers, or leaves a callback that will. -/
theorem arrival_paired {conn : PoolHttpConnection} {read : Read} {a : Arrival}
    (h : Arrives parse server conn read a) :
    Paired Says (deliver parse conn.context a.outcome.components).2 a.replies a.callbacks := by
  have hcount : (deliver parse conn.context a.outcome.components).2.length =
      owed parse conn (.readDone a) := deliver_count parse h.lawful
  have hone : (deliver parse conn.context a.outcome.components).2.length ≤ 1 := by
    rw [hcount, owed]
    split <;> omega
  have hanswers := deliver_programs parse server (P := Answers) (write_answers _)
    (onDataLast_answers parse server) conn.context a.outcome.components
  exact executesAll_paired hone hanswers (action_writes server) h.executes

/-- The step lemma. -/
theorem inOrder_step {self next : PoolHttpConnection} {e : Connection.Event} (hsingle : Single self)
    (h : InOrder self) (hstep : Connection.Step parse server self e next) : InOrder next := by
  cases hstep with
  | @readDone read reads a pending present arrives =>
    obtain ⟨-, -, hnone⟩ := single_read hsingle pending
    have hdelivered := arrival_paired parse server arrives
    rw [InOrder, hnone] at h
    rw [InOrder, onRead, afterParse_actions, afterParse_sent, afterParse_callbacks, parsed,
      leave_actions, leave_sent, leave_callbacks]
    show Paired Says (self.actions ++ _) (sent self ++ _) (self.callbacks ++ _)
    rw [hnone]
    exact paired_append h hdelivered
  | readFailed pending failed =>
    rw [InOrder, close_actions, close_sent, close_callbacks]
    exact h
  | written pending cancelled =>
    simpa [InOrder, onWrite, socketShutdown, sent, written, List.filterMap_cons] using h
  | @answered callback before after callbacks replies waiting x executes =>
    obtain ⟨rfl, rfl, -, -⟩ := single_callback hsingle waiting
    have hanswers := hsingle.answering callback (by simp [waiting]) x
    rw [InOrder, waiting] at h
    rw [InOrder, leave_actions, leave_sent, leave_callbacks]
    exact paired_answered h hanswers executes

/-- The run lemma. -/
theorem inOrder_run {buffer : Buffer} {steps : List (PoolHttpConnection × Connection.Event)}
    {last : PoolHttpConnection} (h : Connection.Run parse server (run buffer) steps last) :
    InOrder last ∧ Single last :=
  Connection.run_keeps (fun conn => InOrder conn ∧ Single conn) (fun _ _ => True)
    (fun _ _ _ hmid _ hstep => ⟨inOrder_step parse server hmid.2 hmid.1 hstep,
      single_step parse server hmid.2 hstep⟩) h ⟨paired_nil, single_run buffer⟩ fun _ _ => trivial

/-- The actions an event sets off. -/
def ended (conn : PoolHttpConnection) : Connection.Event → List Action
  | .readDone a => (deliver parse conn.context a.outcome.components).2
  | _ => []

theorem actions_step {self next : PoolHttpConnection} {e : Connection.Event}
    (hstep : Connection.Step parse server self e next) :
    next.actions = self.actions ++ ended parse self e := by
  cases hstep with
  | readDone pending present arrives =>
    rw [onRead, afterParse_actions, parsed, leave_actions]
    rfl
  | readFailed pending failed =>
    rw [close_actions]
    exact (List.append_nil _).symm
  | written pending cancelled => exact (List.append_nil _).symm
  | answered waiting x executes =>
    rw [leave_actions]
    exact (List.append_nil _).symm

theorem actions_run {start last : PoolHttpConnection}
    {steps : List (PoolHttpConnection × Connection.Event)}
    (h : Connection.Run parse server start steps last) :
    last.actions = start.actions ++ steps.flatMap fun step => ended parse step.1 step.2 := by
  induction h with
  | nil => exact (List.append_nil _).symm
  | snoc _ hstep ih =>
    rw [actions_step parse server hstep, ih, List.flatMap_append]
    simp

section Connections

variable {asyncio : ReferenceCounting} {events : List Event} {last : Listening} {i : Nat}
  {conn : Counting}

/-- The invariant at the end of a run of the server, for the actions of its events. -/
theorem inOrder_of_run (h : Interleaving.Run (Step asyncio parse server) listening events last)
    (hconn : last.connections[i]? = some conn) :
    Paired Says ((takenBy i events).flatMap fun taken => ended parse taken.before taken.event)
      (sent conn.conn) conn.conn.callbacks ∧ conn.conn.callbacks.length ≤ 1 := by
  obtain ⟨buffer, hrun⟩ := (served_of_run asyncio parse server h).own i conn hconn
  have hconnection := run_connection parse server hrun
  obtain ⟨hpaired, hsingle⟩ := inOrder_run parse server hconnection
  have hended := actions_run parse server hconnection
  rw [List.flatMap_map] at hended
  constructor
  · rw [InOrder, hended] at hpaired
    exact hpaired
  · have hcallbacks := hsingle.single
    omega

/-- In every run of the server the replies on a connection answer the requests that have ended
on it one by one and in their order, each in a form of its own function, whatever the core
answers and whatever the other connections do. What is not answered yet is the last request:
its callback waits, and will write in a form of that function. -/
theorem replies_in_order (h : Interleaving.Run (Step asyncio parse server) listening events last)
    (hconn : last.connections[i]? = some conn) :
    ∃ answered waiting,
      ((takenBy i events).flatMap fun taken => ended parse taken.before taken.event) =
        answered ++ waiting ∧
      List.Forall₂ Says answered (sent conn.conn) ∧
      List.Forall₂ (fun action callback => Promises (Says action) callback) waiting
        conn.conn.callbacks ∧
      waiting.length ≤ 1 := by
  obtain ⟨⟨answered, waiting, hended, hsent, hwaiting⟩, hone⟩ :=
    inOrder_of_run parse server h hconn
  refine ⟨answered, waiting, hended, hsent, hwaiting, ?_⟩
  rw [hwaiting.length_eq]
  exact hone

theorem invalidBody_in_order : ∃ events last conn,
    Interleaving.Run (Step plainCounting parseEmpty Server.emptyServer) listening events last ∧
      last.connections[0]? = some conn ∧
        ∃ answered, List.Forall₂ Says answered (sent conn.conn) ∧
          ((takenBy 0 events).flatMap fun taken =>
            ended parseEmpty taken.before taken.event) = answered := by
  obtain ⟨events, last, conn, hrun, hconn, -, hidle, -⟩ := invalidBody_run
  obtain ⟨answered, waiting, hended, hsent, hwaiting, -⟩ := replies_in_order _ _ hrun hconn
  rw [hidle.callbacks] at hwaiting
  cases hwaiting
  exact ⟨events, last, conn, hrun, hconn, answered, hsent, by rw [hended, List.append_nil]⟩

end Connections

end AnswerOrder
