import PoolFrontend.Lifetime

/-!
# Every request is answered or waits

A request ends with its last data, or with the component that is declined. Each end owes one
answer: it has been handed to the socket, or a callback still waits that will do so.
-/
namespace AnswerCount

open CallbackProgram CallbackRuns CallbackActivation Json
open Server hiding aioWrite
open Router Routing
open Connection hiding Step Run run_keeps
open Connection.PoolHttpConnection ConnectionRuns Lifetime
open Handler (program)

variable (parse : List UInt8 → Option Value) (server : PoolHttpServer)

def isLast : Component → Bool
  | .dataLast _ => true
  | _ => false

/-- The parse ends a request. -/
def endsRequest (conn : PoolHttpConnection) (a : Arrival) : Bool :=
  declines parse conn.context a.outcome.components || a.outcome.components.any isLast

def owed (conn : PoolHttpConnection) : Connection.Event → Nat
  | .readDone a => if endsRequest parse conn a then 1 else 0
  | _ => 0

theorem any_isLast (cs : List Component) : cs.any isLast = true ↔ ∃ d, .dataLast d ∈ cs := by
  constructor
  · intro h
    obtain ⟨c, hc, hlast⟩ := List.any_eq_true.mp h
    cases c with
    | dataLast d => exact ⟨d, hc⟩
    | _ => cases hlast
  · rintro ⟨d, hd⟩
    exact List.any_eq_true.mpr ⟨_, hd, rfl⟩

/-- A parse sets off one action where it ends a request, and none elsewhere. -/
theorem deliver_count {conn : PoolHttpConnection} {a : Arrival} {window : List UInt8}
    (h : a.outcome.Lawful window) :
    (deliver parse conn.context a.outcome.components).2.length = owed parse conn (.readDone a) := by
  rw [owed, endsRequest]
  by_cases hlast : ∃ d, .dataLast d ∈ a.outcome.components
  · obtain ⟨d, hd⟩ := hlast
    obtain ⟨-, front, hfront, hnone⟩ := h.last d hd
    rw [(any_isLast _).mpr ⟨d, hd⟩, Bool.or_true, if_pos rfl, hfront, deliver_append]
    split
    · rw [deliver_front parse hnone, if_pos ‹_›]
      rfl
    · rw [deliver_front parse hnone, if_neg ‹_›, deliver_last]
      rfl
  · have hnone : a.outcome.components.any isLast = false := by
      simpa using fun hany => hlast ((any_isLast _).mp hany)
    rw [hnone, Bool.or_false, deliver_front parse fun d hd => hlast ⟨d, hd⟩]
    split <;> rfl

theorem write_answers (m : Reply) : Answers (.write m .done : Program Http) := trivial

/-- Programs that owe one message each leave as many messages and callbacks. -/
theorem executesAll_answers {I : Interface} {ps : List (Program I)} {ms : List I.Message}
    {ws : List (Callback I)} (h : ∀ p ∈ ps, Answers p) (he : ExecutesAll ps ms ws) :
    ms.length + ws.length = ps.length := by
  induction he with
  | nil => rfl
  | cons hp _ ih =>
    have hrest := ih fun p hp => h p (List.mem_cons_of_mem _ hp)
    simp only [List.length_append, List.length_cons]
    rcases answers_executes (h _ List.mem_cons_self) hp with ⟨m, rfl, rfl⟩ | ⟨rfl, w, rfl, -⟩
    · simp only [List.length_singleton, List.length_nil]
      omega
    · simp only [List.length_singleton, List.length_nil]
      omega

/-- The handlers of a parse leave what it owes. -/
theorem arrival_owes {conn : PoolHttpConnection} {read : Read} {a : Arrival}
    (h : Arrives parse server conn read a) :
    a.replies.length + a.callbacks.length = owed parse conn (.readDone a) := by
  rw [← deliver_count parse h.lawful]
  have hanswers : ∀ p ∈ programsOf parse server conn a, Answers p := by
    intro p hp
    obtain ⟨action, haction, rfl⟩ := List.mem_map.mp hp
    exact deliver_programs parse server (write_answers _) (onDataLast_answers parse server) _ _
      action haction
  have hcount := executesAll_answers hanswers h.executes
  simpa [programsOf] using hcount

def isWrite : SocketCall × Socket → Bool
  | (.aioWrite _, _) => true
  | _ => false

/-- How many replies were handed to the socket. -/
def replied (conn : PoolHttpConnection) : Nat := conn.calls.countP isWrite

theorem leave_replied (self : PoolHttpConnection) (replies : List Reply)
    (callbacks : List (Callback Http)) :
    replied (self.leave replies callbacks) = replied self + replies.length := by
  rw [leave]
  show replied (replies.foldl PoolHttpConnection.aioWrite self) = _
  induction replies generalizing self with
  | nil => rfl
  | cons reply replies ih =>
    rw [List.foldl_cons, ih, List.length_cons]
    simp [replied, isWrite]
    omega

theorem close_replied (self : PoolHttpConnection) : replied self.close = replied self := by
  rw [close]
  split
  · simp [replied, isWrite]
  · rfl

theorem afterParse_replied (self : PoolHttpConnection) (result : ParserResult)
    (window : List UInt8) (remaining : Nat) (copied : List UInt8) :
    replied (self.afterParse result window remaining copied) = replied self := by
  cases result with
  | ok => rfl
  | needMoreData => simp [afterParse, replied, isWrite]
  | error | cancelled => exact close_replied self

theorem afterParse_callbacks (self : PoolHttpConnection) (result : ParserResult)
    (window : List UInt8) (remaining : Nat) (copied : List UInt8) :
    (self.afterParse result window remaining copied).callbacks = self.callbacks := by
  apply afterParse_keeps
  · exact close_callbacks self
  · intros
    rfl
  · rfl

/-- The step lemma: what is owed is handed on, or a callback waits with it. -/
theorem answers_step {self next : PoolHttpConnection} {e : Connection.Event} (h : Single self)
    (hstep : Connection.Step parse server self e next) :
    replied next + next.callbacks.length =
      replied self + self.callbacks.length + owed parse self e := by
  cases hstep with
  | @readDone read reads a pending present arrives =>
    have howed := arrival_owes parse server arrives
    rw [onRead, afterParse_replied, afterParse_callbacks, parsed, leave_replied, leave_callbacks,
      List.length_append, ← howed]
    show replied self + _ + (self.callbacks.length + _) = _
    omega
  | readFailed pending failed =>
    rw [close_replied, close_callbacks]
    rfl
  | written pending cancelled => simp [onWrite, socketShutdown, replied, isWrite, owed]
  | @answered callback before after callbacks replies waiting x executes =>
    have hanswers := h.answering callback (by simp [waiting]) x
    have hone : replies.length + callbacks.length = 1 := by
      have hlist : ∀ p ∈ [callback.onAnswer x], Answers p := by simpa using hanswers
      simpa using executesAll_answers hlist (executesAll_singleton.mpr executes)
    rw [leave_replied, leave_callbacks, List.length_append, waiting]
    show replied self + _ + ((before ++ after).length + _) = _
    simp only [List.length_append, List.length_cons, owed]
    omega

/-- The run lemma. -/
theorem answers_run {start last : PoolHttpConnection}
    {steps : List (PoolHttpConnection × Connection.Event)}
    (h : Connection.Run parse server start steps last) (hstart : Single start) :
    replied last + last.callbacks.length = replied start + start.callbacks.length +
      (steps.map fun step => owed parse step.1 step.2).sum := by
  induction h with
  | nil => rfl
  | snoc hrun hstep ih =>
    have hmid := single_of_run parse server hrun hstart
    rw [answers_step parse server hmid hstep, ih, List.map_append, List.sum_append]
    simp
    omega

/-- The requests that have ended are those that were answered on the socket and the one whose
callback still waits. -/
theorem answers_conserved {buffer : Buffer}
    {steps : List (PoolHttpConnection × Connection.Event)} {last : PoolHttpConnection}
    (h : Connection.Run parse server (run buffer) steps last) :
    (steps.map fun step => owed parse step.1 step.2).sum =
      replied last + last.callbacks.length ∧ last.callbacks.length ≤ 1 := by
  have hcount := answers_run parse server h (single_run buffer)
  have hsingle := (single_of_run parse server h (single_run buffer)).single
  have hnone : replied (run buffer) + (run buffer).callbacks.length = 0 := rfl
  constructor <;> omega

end AnswerCount
