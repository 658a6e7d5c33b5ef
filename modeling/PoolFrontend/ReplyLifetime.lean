import PoolFrontend.ConnectionRuns

/-!
# The lifetime of a reply

A connection that never answers 404 ends nothing under a reply, and starts nothing on a
deleted object. A 404 answer returns zero to the parser: the parse is cancelled and the
connection deletes the object with that answer still queued.
-/
namespace ReplyLifetime

open CallbackProgram CallbackRuns CallbackActivation Json
open Server hiding aioWrite
open Router Routing Connection Connection.PoolHttpConnection ConnectionRuns

variable (parse : List UInt8 → Option Value) (server : PoolHttpServer)

/-- The call ends no queued reply, and starts nothing on a deleted object. -/
def UncutCall : SocketCall × Socket → Prop
  | (.aioRead _, socket) => socket.deleted = false
  | (.aioWrite _, socket) => socket.deleted = false
  | (.socketShutdown, socket) => socket.writes = []
  | (.deleteAioObject, socket) => socket.writes = []

def Uncut (conn : PoolHttpConnection) : Prop := ∀ call ∈ conn.calls, UncutCall call

/-- The read brings a request that `onParse` answers with 404. -/
def AnsweredNotFound (conn : PoolHttpConnection) : Event → Prop
  | .readDone a => declines parse conn.context a.outcome.components = true
  | _ => False

section Calls

variable {calls : List (SocketCall × Socket)} {self : PoolHttpConnection}

theorem leave_calls (h : calls <+: self.calls) (replies : List Reply)
    (callbacks : List (Callback Http)) : calls <+: (self.leave replies callbacks).calls := by
  rw [leave]
  show calls <+: (replies.foldl PoolHttpConnection.aioWrite self).calls
  induction replies generalizing self with
  | nil => exact h
  | cons reply replies ih =>
    have hwrite : calls <+: (self.aioWrite reply).calls := h.trans (List.prefix_append _ _)
    exact ih hwrite

theorem close_calls (h : calls <+: self.calls) : calls <+: self.close.calls := by
  rw [close]
  split
  · exact h.trans (List.prefix_append _ _)
  · exact h

theorem onWrite_calls (h : calls <+: self.calls) : calls <+: self.onWrite.calls :=
  h.trans ((List.prefix_append _ _).trans (List.prefix_append _ _))

theorem afterParse_calls (h : calls <+: self.calls) (result : ParserResult)
    (window : List UInt8) (remaining : Nat) (copied : List UInt8) :
    calls <+: (self.afterParse result window remaining copied).calls := by
  cases result with
  | ok => exact h
  | needMoreData => exact h.trans (List.prefix_append _ _)
  | error | cancelled => exact close_calls h

end Calls

theorem calls_step {self next : PoolHttpConnection} {e : Event}
    (h : Step parse server self e next) : self.calls <+: next.calls := by
  cases h with
  | readDone pending present arrives =>
    apply afterParse_calls
    apply leave_calls
    exact List.prefix_refl _
  | readFailed =>
    apply close_calls
    exact List.prefix_refl _
  | written =>
    apply onWrite_calls
    exact List.prefix_refl _
  | answered =>
    apply leave_calls
    exact List.prefix_refl _

/-- What was cut off once stays cut off. -/
theorem uncut_of_step {self next : PoolHttpConnection} {e : Event}
    (h : Step parse server self e next) (hnext : Uncut next) : Uncut self :=
  fun call hcall => hnext call ((calls_step parse server h).subset hcall)

theorem uncut_calling {self : PoolHttpConnection} (h : Uncut self) {call : SocketCall}
    (hcall : UncutCall (call, self.socket)) : Uncut (self.calling call) := by
  intro c hc
  rcases List.mem_append.mp hc with hold | hnew
  · exact h c hold
  · rw [List.mem_singleton.mp hnew]
    exact hcall

/-- What the handlers leave on an object that is still there. -/
theorem uncut_leave {self : PoolHttpConnection} (h : Uncut self)
    (hpresent : self.socket.deleted = false) (replies : List Reply)
    (callbacks : List (Callback Http)) :
    Uncut (self.leave replies callbacks) ∧
      (self.leave replies callbacks).socket.deleted = false := by
  rw [leave]
  show Uncut (replies.foldl PoolHttpConnection.aioWrite self) ∧
    (replies.foldl PoolHttpConnection.aioWrite self).socket.deleted = false
  induction replies generalizing self with
  | nil => exact ⟨h, hpresent⟩
  | cons reply replies ih =>
    have hwrite : Uncut (self.aioWrite reply) := by
      apply uncut_calling
      · exact h
      · exact hpresent
    exact ih hwrite hpresent

theorem uncut_parsed {self : PoolHttpConnection} (h : Uncut self)
    (hpresent : self.socket.deleted = false) (a : Arrival) :
    Uncut (self.parsed parse a) ∧ (self.parsed parse a).socket.deleted = false := by
  apply uncut_leave
  · exact h
  · exact hpresent

/-- The invariant of such a run: nothing is in flight on a deleted object. -/
structure Kept (conn : PoolHttpConnection) : Prop where
  single : Single conn
  uncut : Uncut conn
  gone : conn.socket.deleted = true →
    conn.socket.reads = [] ∧ conn.socket.writes = [] ∧ conn.callbacks = []

theorem kept_run (buffer : Buffer) : Kept (run buffer) := by
  refine ⟨single_run buffer, ?_, by simp [run, PoolHttpConnection.aioRead, calling]⟩
  simp [Uncut, UncutCall, run, PoolHttpConnection.aioRead, calling]

/-- A connection with nothing in flight may be closed. -/
theorem kept_close {self : PoolHttpConnection} (hsingle : Single self) (huncut : Uncut self)
    (hreads : self.socket.reads = []) (hwrites : self.socket.writes = [])
    (hcallbacks : self.callbacks = []) : Kept self.close := by
  have hflight : self.close.socket.reads = [] ∧ self.close.socket.writes = [] ∧
      self.close.callbacks = [] := by
    rw [close]
    split
    · exact ⟨hreads, hwrites, hcallbacks⟩
    · exact ⟨hreads, hwrites, hcallbacks⟩
  refine ⟨single_close hsingle, ?_, fun _ => hflight⟩
  rw [close]
  split
  · apply uncut_calling
    · exact huncut
    · exact hwrites
  · exact huncut

/-- While something is in flight the object is there. -/
theorem kept_present {self : PoolHttpConnection} (h : Kept self)
    (hflight : self.socket.reads ≠ [] ∨ self.socket.writes ≠ [] ∨ self.callbacks ≠ []) :
    self.socket.deleted = false := by
  by_contra hdeleted
  obtain ⟨hreads, hwrites, hcallbacks⟩ := h.gone (by simpa using hdeleted)
  simp [hreads, hwrites, hcallbacks] at hflight

theorem kept_step {self next : PoolHttpConnection} {e : Event} (h : Kept self)
    (hfound : ¬ AnsweredNotFound parse self e) (hstep : Step parse server self e next) :
    Kept next := by
  have hsingle := single_step parse server h.single hstep
  cases hstep with
  | @readDone read reads a pending present arrives =>
    obtain ⟨rfl, hwrites, hcallbacks⟩ := single_read h.single pending
    have hreads : (self.received read a.data).socket.reads = [] := by simp [pending]
    have hdeclined : declines parse self.context a.outcome.components = false := by
      simpa [AnsweredNotFound] using hfound
    have hleft := delivery_left parse server arrives.lawful arrives.executes
    rw [hdeclined] at hleft
    have hparsed := parsed_single parse (self.received read a.data) hreads hwrites
      hcallbacks h.single.closed hleft
    have huncut : Uncut (self.received read a.data) := h.uncut
    obtain ⟨huncut, hdeleted⟩ := uncut_parsed parse huncut present a
    simp only [onRead, received_context, hdeclined, Bool.false_eq_true, if_false] at hsingle ⊢
    cases hresult : a.outcome.result with
    | ok =>
      rw [hresult] at hsingle
      exact ⟨hsingle, huncut, fun hgone => by simp [afterParse, hdeleted] at hgone⟩
    | error | cancelled =>
      obtain ⟨-, -, hr, hw, hc⟩ := parsed_idle parse (self.received read a.data) hreads hwrites
        hcallbacks hleft (by simp [hresult])
      exact kept_close hparsed huncut hr hw hc
    | needMoreData =>
      rw [hresult] at hsingle
      refine ⟨hsingle, ?_, fun hgone => by simp [afterParse, hdeleted] at hgone⟩
      apply uncut_calling
      · exact huncut
      · exact hdeleted
  | @readFailed read reads status pending failed =>
    obtain ⟨rfl, hwrites, hcallbacks⟩ := single_read h.single pending
    exact kept_close ⟨by simp [hwrites, hcallbacks], h.single.answering, h.single.closed⟩ h.uncut
      rfl hwrites hcallbacks
  | @written reply writes status pending cancelled =>
    obtain ⟨rfl, hreads, hcallbacks⟩ := single_write h.single pending
    have hpresent := kept_present h (.inr (.inl (by simp [pending])))
    refine ⟨hsingle, ?_, fun hgone => by simp [onWrite, socketShutdown, hpresent] at hgone⟩
    apply uncut_calling
    · apply uncut_calling
      · exact h.uncut
      · rfl
    · exact hpresent
  | @answered callback before after callbacks replies waiting x executes =>
    have hpresent := kept_present h (.inr (.inr (by simp [waiting])))
    have hrest : Uncut { self with callbacks := before ++ after } := h.uncut
    obtain ⟨huncut, hdeleted⟩ := uncut_leave hrest hpresent replies callbacks
    exact ⟨hsingle, huncut, fun hgone => by rw [hdeleted] at hgone; cases hgone⟩

/-- A 404 answer is queued when the object is deleted. -/
theorem notFound_cuts {self next : PoolHttpConnection} {e : Event} (h : Single self)
    (hfound : AnsweredNotFound parse self e) (hstep : Step parse server self e next) :
    ¬ Uncut next := by
  cases hstep with
  | @readDone read reads a pending present arrives =>
    have hdeclined : declines parse self.context a.outcome.components = true := hfound
    have hleft := delivery_left parse server arrives.lawful arrives.executes
    have hopen : self.deleted = 0 := h.closed present
    obtain ⟨hreplies, hcallbacks⟩ : a.replies = [.reply404] ∧ a.callbacks = [] := by
      rw [hdeclined] at hleft
      generalize a.replies = replies at hleft
      generalize a.callbacks = callbacks at hleft
      cases hleft with
      | declined => exact ⟨rfl, rfl⟩
      | nothing hd | reply _ hd | callback _ hd => cases hd
    intro huncut
    simp only [onRead, received_context, hdeclined, if_true, afterParse, close, parsed, leave,
      hreplies, hcallbacks, List.foldl, aioWrite_deleted, received_deleted, hopen] at huncut
    have hcut := huncut _ (List.mem_append_right _ (List.mem_singleton_self _))
    simp [UncutCall] at hcut
  | readFailed | written | answered => exact hfound.elim

theorem kept_of_run {self last : PoolHttpConnection}
    {steps : List (PoolHttpConnection × Event)} (h : Run parse server self steps last)
    (hself : Kept self) (hfound : ∀ step ∈ steps, ¬ AnsweredNotFound parse step.1 step.2) :
    Kept last :=
  run_keeps Kept (fun conn e => ¬ AnsweredNotFound parse conn e)
    (fun _ _ _ hmid hevent hstep => kept_step parse server hmid hevent hstep) h hself hfound

theorem found_of_uncut {self last : PoolHttpConnection}
    {steps : List (PoolHttpConnection × Event)} (h : Run parse server self steps last)
    (hself : Single self) (hlast : Uncut last) :
    ∀ step ∈ steps, ¬ AnsweredNotFound parse step.1 step.2 := by
  induction h with
  | nil => simp
  | snoc hrun hstep ih =>
    intro step hs
    rcases List.mem_append.mp hs with hold | hnew
    · exact ih (uncut_of_step parse server hstep hlast) step hold
    · rw [List.mem_singleton.mp hnew]
      intro hfound
      exact notFound_cuts parse server (single_of_run parse server hrun hself) hfound hstep hlast

/-- Replies are cut off exactly in the runs that answer a request with 404. -/
theorem uncut_iff {buffer : Buffer} {steps : List (PoolHttpConnection × Event)}
    {last : PoolHttpConnection} (h : Run parse server (run buffer) steps last) :
    Uncut last ↔ ∀ step ∈ steps, ¬ AnsweredNotFound parse step.1 step.2 := by
  constructor
  · exact found_of_uncut parse server h (single_run buffer)
  · intro hfound
    exact (kept_of_run parse server h (kept_run buffer) hfound).uncut

/-- A body that is not JSON is answered, and the answer is written. -/
theorem uncut_invalidJson :
    ∃ steps last, Run parseEmpty emptyServer (run ⟨.replicate bufferSize 0, by simp⟩) steps
      last ∧ last.calls.length = 4 ∧ Uncut last := by
  let start := run ⟨.replicate bufferSize 0, by simp⟩
  let replied :=
    (start.received ⟨0, bufferSize⟩ invalidBody.data).onRead parseEmpty invalidBody
  have hkept : declines parseEmpty start.context invalidBody.outcome.components = false := rfl
  have hsocket : replied.socket = ⟨[], [statusReply "invalid_json"], false⟩ := rfl
  have hwritten : Step parseEmpty emptyServer replied (.written .aosSuccess) _ :=
    .written (by rw [hsocket]) (by simp [hsocket])
  have hrun := ((Run.nil start).snoc
    (.readDone rfl rfl (invalidBody_arrives emptyServer _))).snoc hwritten
  refine ⟨_, _, hrun, rfl, (uncut_iff _ _ hrun).mpr ?_⟩
  simp [AnsweredNotFound, hkept]

/-- The path names no function: the answer is still queued when the object is deleted. -/
theorem notFound_cut :
    ¬ ∀ (parse : List UInt8 → Option Value) (server : PoolHttpServer) (buffer : Buffer)
      (steps : List (PoolHttpConnection × Event)) (last : PoolHttpConnection),
      Run parse server (run buffer) steps last → Uncut last := by
  intro h
  let start := run ⟨.replicate bufferSize 0, by simp⟩
  let a : Arrival := ⟨bytes "POST /x HTTP/1.1\r\n\r\n",
    ⟨[.method .hmPost, .uriPathElement (bytes "x")], .needMoreData, 0⟩, [], [.reply404], []⟩
  have hread : Arrives parseEmpty emptyServer start ⟨0, bufferSize⟩ a := by
    refine ⟨by decide, by decide, ⟨Nat.zero_le _, by decide, ?_⟩, copied_nothing _, ?_⟩
    · intro d hd
      simp [a] at hd
    · exact executesAll_singleton.mpr (.write _ .done)
  have hrun := (Run.nil start).snoc (.readDone rfl rfl hread)
  have hfound := found_of_uncut _ _ hrun (single_run _) (h _ _ _ _ _ hrun)
  have hx : bytes "x" ≠ bytes "api" := by decide
  simp [AnsweredNotFound, a, start, run, declines, onParse, hx] at hfound

end ReplyLifetime
