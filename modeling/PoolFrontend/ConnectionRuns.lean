import PoolFrontend.Connection
import PoolFrontend.Endpoints
import PoolFrontend.Routing

/-!
# One operation in flight

A handler answers once, so a connection that starts with one read never has more than one
read, reply or callback under way.
-/
namespace ConnectionRuns

open CallbackProgram CallbackRuns CallbackActivation Json Poolcore RequestFields
open Server hiding aioWrite
open UserHandlers BackendHandlers Router Routing Endpoints Connection Connection.PoolHttpConnection
open Handler (program)

variable (parse : List UInt8 → Option Value) (server : PoolHttpServer)

theorem userBalance_answers {ms : Members}
    (h : AsksNoDatabase server ((sessionTargetCoinMembers ms).map fun fields => fields.2.2)) :
    Answers (onBackendQueryUserBalance server (.object ms)).program := by
  obtain ⟨hcoin, hbackends⟩ := h
  rw [onBackendQueryUserBalance, withFields_sessionTargetCoin]
  cases hf : sessionTargetCoinMembers ms with
  | none => simp [hf] at hcoin
  | some fields =>
    obtain ⟨sessionId, targetLogin, coin⟩ := fields
    have hcoin : coin = "" := by simpa [hf] using hcoin
    intro x
    cases x <;> simp [hcoin, hbackends, Answers, Quiet]

theorem poolStats_answers {ms : Members} (h : AsksNoDatabase server (stringOr ms "coin" "")) :
    Answers (onBackendQueryPoolStats server (.object ms)).program := by
  obtain ⟨hcoin, hbackends⟩ := h
  rw [onBackendQueryPoolStats, withFields_stringOr, hcoin]
  simp [accepted, program, hbackends, Answers]

theorem pplnsAcc_answers {ms : Members} (h : GuardUndefined server ms) :
    Answers (onBackendQueryPPLNSAcc server (.object ms)).program := by
  obtain ⟨sessionId, targetLogin, coin, timeFrom, timeTo, groupByInterval, hfields, hbackend,
    hguard⟩ := h
  obtain ⟨backend, hb⟩ := Option.isSome_iff_exists.mp hbackend
  have hnone := (invalidInterval_none_iff timeFrom timeTo groupByInterval).mpr hguard
  rw [onBackendQueryPPLNSAcc, withFields_pplnsAcc, hfields]
  intro x
  cases x <;> simp [hb, hnone, Answers, Quiet]

theorem undefined_answers {f : FunctionTy} {ms : Members} (h : Undefined server ms f) :
    Answers (dispatch server f (.object ms)).program := by
  cases f with
  | fnBackendQueryUserBalance => exact userBalance_answers server h
  | fnBackendQueryPoolStats => exact poolStats_answers server h
  | fnBackendQueryPPLNSAcc => exact pplnsAcc_answers server h
  | _ => exact h.elim

/-- Every endpoint answers, with or without an undefined operation. -/
theorem dispatch_answers (f : FunctionTy) (ms : Members) :
    Answers (dispatch server f (.object ms)).program := by
  by_cases h : Undefined server ms f
  · exact undefined_answers server h
  · exact inPhase_answers (by decide) ((dispatch_orderly server ms f).answers h)

/-- Before the end of a body a component is accepted in silence or declined with 404. -/
theorem onParse_front {c : Component} (h : ∀ d, c ≠ .dataLast d) (context : Context) :
    (onParse parse context c).action =
      if (onParse parse context c).proceed then none else some .reply404 := by
  cases c with
  | method m | data d | other => rfl
  | dataLast d => exact absurd rfl (h d)
  | uriPathElement data =>
    by_cases hu : context.function = .fnUnknown ∧ data = bytes "api"
    · simp [onParse, hu]
    · by_cases ha : context.function = .fnApi
      · cases hfind : findFunction data with
        | none => simp [onParse, ha, hfind]
        | some e => by_cases hm : e.1 = context.method <;> simp [onParse, ha, hfind, hm]
      · simp [onParse, hu, ha]

theorem deliver_front {cs : List Component} (h : ∀ d, .dataLast d ∉ cs) (context : Context) :
    (deliver parse context cs).2 = if declines parse context cs then [.reply404] else [] := by
  induction cs generalizing context with
  | nil => rfl
  | cons c cs ih =>
    have hrest : ∀ d, .dataLast d ∉ cs := fun d hd => h d (List.mem_cons_of_mem _ hd)
    have hc : ∀ d, c ≠ .dataLast d := fun d hd => h d (by simp [hd])
    have haction := onParse_front parse hc context
    cases hp : (onParse parse context c).proceed with
    | true => simpa [deliver, declines, hp, haction] using ih hrest _
    | false => simp [deliver, declines, hp, haction]

/-- A declined component ends the delivery. -/
theorem deliver_append (cs ds : List Component) (context : Context) :
    deliver parse context (cs ++ ds) =
      if declines parse context cs then deliver parse context cs
      else ((deliver parse (deliver parse context cs).1 ds).1,
        (deliver parse context cs).2 ++ (deliver parse (deliver parse context cs).1 ds).2) := by
  induction cs generalizing context with
  | nil => simp [deliver, declines]
  | cons c cs ih =>
    cases hp : (onParse parse context c).proceed with
    | true =>
      simp only [List.cons_append, deliver, declines, hp, if_true, ih]
      split <;> simp
    | false => simp [deliver, declines, hp]

theorem declines_append (cs ds : List Component) (context : Context) :
    declines parse context (cs ++ ds) =
      (declines parse context cs || declines parse (deliver parse context cs).1 ds) := by
  induction cs generalizing context with
  | nil => simp [deliver, declines]
  | cons c cs ih =>
    cases hp : (onParse parse context c).proceed with
    | true => simp [deliver, declines, hp, ih]
    | false => simp [declines, hp]

theorem declines_last (context : Context) (d : List UInt8) :
    declines parse context [.dataLast d] =
      !(onDataLast parse context.function (context.request ++ d)).2 := by
  cases h : (onDataLast parse context.function (context.request ++ d)).2 <;>
    simp [declines, onParse, h]

theorem onDataLast_declines (f : FunctionTy) (request : List UInt8) :
    (onDataLast parse f request).2 = false ↔ (onDataLast parse f request).1 = .reply404 := by
  refine ⟨fun h => ?_, onDataLast_stops parse⟩
  unfold onDataLast at h ⊢
  cases hp : parse (requestText request) with
  | none => simp [hp] at h
  | some document =>
    cases hd : document.isObject with
    | false => simp [hp, hd] at h
    | true => cases hf : handlerOf f <;> simp_all

theorem onDataLast_answers (f : FunctionTy) (request : List UInt8) :
    Answers ((onDataLast parse f request).1.handler server).program := by
  rw [onDataLast_action]
  cases requestObject parse request with
  | none => trivial
  | some ms =>
    dsimp only
    split
    · exact dispatch_answers server f ms
    · trivial

/-- What the handlers of one parse leave. -/
inductive Left (outcome : Outcome) (declined : Bool) :
    List Reply → List (Callback Http) → Prop
  | declined (h : declined = true) : Left outcome declined [.reply404] []
  | nothing (h : declined = false) : Left outcome declined [] []
  | reply (m : Reply) (h : declined = false) (ok : outcome.result = .ok) :
      Left outcome declined [m] []
  | callback (w : Callback Http) (h : declined = false) (ok : outcome.result = .ok)
      (answers : ∀ x, Answers (w.onAnswer x)) : Left outcome declined [] [w]

theorem executes_reply404 {replies : List Reply} {callbacks : List (Callback Http)}
    (h : Executes (Action.reply404.handler server).program replies callbacks) :
    replies = [.reply404] ∧ callbacks = [] := by
  cases h with
  | write m hdone =>
    cases hdone
    exact ⟨rfl, rfl⟩

/-- A parse leaves a reply or a callback only where it ends a request. -/
theorem delivery_left {outcome : Outcome} {window : List UInt8} (hl : outcome.Lawful window)
    {context : Context} {replies : List Reply} {callbacks : List (Callback Http)}
    (he : ExecutesAll ((deliver parse context outcome.components).2.map fun action =>
      (action.handler server).program) replies callbacks) :
    Left outcome (declines parse context outcome.components) replies callbacks := by
  have hcut : ∀ cs : List Component, (deliver parse context outcome.components).2 =
      (if declines parse context cs then [.reply404] else []) →
      declines parse context outcome.components = declines parse context cs →
      Left outcome (declines parse context outcome.components) replies callbacks := by
    intro cs hactions hsame
    rw [hactions] at he
    rw [hsame]
    cases hd : declines parse context cs with
    | true =>
      rw [hd] at he
      obtain ⟨rfl, rfl⟩ := executes_reply404 server (executesAll_singleton.mp he)
      exact .declined rfl
    | false =>
      rw [hd] at he
      cases he
      exact .nothing rfl
  by_cases hlast : ∃ d, .dataLast d ∈ outcome.components
  · obtain ⟨d, hd⟩ := hlast
    obtain ⟨hok, front, hfront, hnone⟩ := hl.last d hd
    have hactions := deliver_append parse front [.dataLast d] context
    have hdeclines := declines_append parse front [.dataLast d] context
    rw [← hfront] at hactions hdeclines
    cases hdf : declines parse context front with
    | true =>
      refine hcut front ?_ ?_
      · rw [hactions, if_pos hdf, deliver_front parse hnone]
      · rw [hdeclines, hdf]
        rfl
    | false =>
      rw [if_neg (by simp [hdf]), deliver_front parse hnone, hdf, deliver_last] at hactions
      rw [hactions] at he
      have hone := executesAll_singleton.mp he
      have hend : declines parse context outcome.components =
          !(onDataLast parse (deliver parse context front).1.function
            ((deliver parse context front).1.request ++ d)).2 := by
        rw [hdeclines, hdf, declines_last]
        rfl
      cases hp : (onDataLast parse (deliver parse context front).1.function
          ((deliver parse context front).1.request ++ d)).2 with
      | false =>
        rw [(onDataLast_declines parse _ _).mp hp] at hone
        obtain ⟨rfl, rfl⟩ := executes_reply404 server hone
        exact .declined (by rw [hend, hp]; rfl)
      | true =>
        have hkept : declines parse context outcome.components = false := by
          rw [hend, hp]
          rfl
        rcases answers_executes (onDataLast_answers parse server _ _) hone with
          ⟨m, rfl, rfl⟩ | ⟨rfl, w, rfl, hw⟩
        · exact .reply m hkept hok
        · exact .callback w hkept hok hw
  · have hnone : ∀ d, .dataLast d ∉ outcome.components := fun d hd => hlast ⟨d, hd⟩
    exact hcut outcome.components (deliver_front parse hnone context) rfl

section Frame

variable (self : PoolHttpConnection) (replies : List Reply) (callbacks : List (Callback Http))

theorem leave_keeps {α : Type} (field : PoolHttpConnection → α)
    (hwrite : ∀ (conn : PoolHttpConnection) (reply : Reply),
      field (conn.aioWrite reply) = field conn)
    (hcallbacks : ∀ (conn : PoolHttpConnection) (callbacks : List (Callback Http)),
      field { conn with callbacks := callbacks } = field conn) :
    field (self.leave replies callbacks) = field self := by
  rw [leave, hcallbacks]
  induction replies generalizing self with
  | nil => rfl
  | cons reply replies ih => rw [List.foldl_cons, ih, hwrite]

@[simp] theorem leave_buffer : (self.leave replies callbacks).buffer = self.buffer :=
  leave_keeps self replies callbacks _ (fun _ _ => rfl) (fun _ _ => rfl)

@[simp] theorem leave_oldDataSize :
    (self.leave replies callbacks).oldDataSize = self.oldDataSize :=
  leave_keeps self replies callbacks _ (fun _ _ => rfl) (fun _ _ => rfl)

@[simp] theorem leave_deleted : (self.leave replies callbacks).deleted = self.deleted :=
  leave_keeps self replies callbacks _ (fun _ _ => rfl) (fun _ _ => rfl)

@[simp] theorem leave_context : (self.leave replies callbacks).context = self.context :=
  leave_keeps self replies callbacks _ (fun _ _ => rfl) (fun _ _ => rfl)

@[simp] theorem leave_windows : (self.leave replies callbacks).windows = self.windows :=
  leave_keeps self replies callbacks _ (fun _ _ => rfl) (fun _ _ => rfl)

@[simp] theorem leave_actions : (self.leave replies callbacks).actions = self.actions :=
  leave_keeps self replies callbacks _ (fun _ _ => rfl) (fun _ _ => rfl)

@[simp] theorem leave_unconsumed : (self.leave replies callbacks).unconsumed = self.unconsumed :=
  leave_keeps self replies callbacks _ (fun _ _ => rfl) (fun _ _ => rfl)

@[simp] theorem leave_socket_reads :
    (self.leave replies callbacks).socket.reads = self.socket.reads :=
  leave_keeps self replies callbacks (fun conn => conn.socket.reads) (fun _ _ => rfl)
    (fun _ _ => rfl)

@[simp] theorem leave_socket_deleted :
    (self.leave replies callbacks).socket.deleted = self.socket.deleted :=
  leave_keeps self replies callbacks (fun conn => conn.socket.deleted) (fun _ _ => rfl)
    (fun _ _ => rfl)

@[simp] theorem close_socket_reads : self.close.socket.reads = self.socket.reads := by
  rw [close]
  split <;> rfl

/-- What only the parse changes is as the parse left it. -/
theorem afterParse_keeps {α : Type} (field : PoolHttpConnection → α)
    (hclose : field self.close = field self)
    (htail : ∀ (conn : PoolHttpConnection) (old : Nat) (buffer : Buffer)
      (memcpys : List (Region × Region)) (rest : List UInt8) (offset size : Nat),
      field ({ conn with
        oldDataSize := old, buffer := buffer, memcpys := memcpys, unconsumed := rest }.aioRead
          offset size) = field conn)
    (hok : field { self with unconsumed := [] } = field self) (result : ParserResult)
    (window : List UInt8) (remaining : Nat) (copied : List UInt8) :
    field (self.afterParse result window remaining copied) = field self := by
  cases result with
  | ok => exact hok
  | needMoreData => exact htail _ _ _ _ _ _ _
  | error | cancelled => exact hclose

variable (result : ParserResult) (window : List UInt8) (remaining : Nat) (copied : List UInt8)

@[simp] theorem afterParse_windows :
    (self.afterParse result window remaining copied).windows = self.windows :=
  afterParse_keeps self _ (by rw [close]; split <;> rfl) (fun _ _ _ _ _ _ _ => rfl) rfl _ _ _ _

@[simp] theorem afterParse_context :
    (self.afterParse result window remaining copied).context = self.context :=
  afterParse_keeps self _ (by rw [close]; split <;> rfl) (fun _ _ _ _ _ _ _ => rfl) rfl _ _ _ _

@[simp] theorem afterParse_actions :
    (self.afterParse result window remaining copied).actions = self.actions :=
  afterParse_keeps self _ (by rw [close]; split <;> rfl) (fun _ _ _ _ _ _ _ => rfl) rfl _ _ _ _

end Frame

/-- The read that follows a kept tail. -/
theorem size_after_tail {remaining : Nat} (h : remaining ≤ bufferSize) :
    (2 ^ 64 + bufferSize - remaining) % 2 ^ 64 = bufferSize - remaining := by
  have hsize : bufferSize = 65536 := rfl
  omega

/-- The tail is stored at the beginning of the buffer. -/
theorem take_store_tail (buffer : Buffer) {tail : List UInt8} {remaining : Nat}
    (hlength : tail.length = remaining) (hsize : remaining ≤ bufferSize) :
    (if remaining ≠ 0 then buffer.store 0 tail else buffer).val.take remaining = tail := by
  by_cases h : remaining = 0
  · subst h
    simpa using (List.eq_nil_of_length_eq_zero hlength).symm
  · have hstore : (buffer.store 0 tail).val.take (tail.length + 0) = buffer.val.take 0 ++ tail :=
      buffer.take_store (by omega)
    simpa [h, hlength] using hstore

/-- At most one operation is in flight, a callback in flight still answers, and the object
has been deleted once the connection was closed. -/
structure Single (conn : PoolHttpConnection) : Prop where
  single : conn.socket.reads.length + conn.socket.writes.length + conn.callbacks.length ≤ 1
  answering : ∀ w ∈ conn.callbacks, ∀ x, Answers (w.onAnswer x)
  closed : conn.socket.deleted = false → conn.deleted = 0

theorem single_run (buffer : Buffer) : Single (run buffer) :=
  ⟨by simp [run, aioRead, calling], by simp [run, aioRead, calling],
    by simp [run, aioRead, calling]⟩

/-- What is counted beside one element of a total of one is nothing. -/
theorem alone {α β γ : Type} {x : α} {xs : List α} {ys : List β} {zs : List γ}
    (h : (x :: xs).length + ys.length + zs.length ≤ 1) : xs = [] ∧ ys = [] ∧ zs = [] := by
  rw [List.length_cons] at h
  have hxs : xs.length = 0 := by omega
  have hys : ys.length = 0 := by omega
  have hzs : zs.length = 0 := by omega
  exact ⟨List.eq_nil_of_length_eq_zero hxs, List.eq_nil_of_length_eq_zero hys,
    List.eq_nil_of_length_eq_zero hzs⟩

theorem single_read {self : PoolHttpConnection} (h : Single self) {read : Read} {reads : List Read}
    (hr : self.socket.reads = read :: reads) :
    reads = [] ∧ self.socket.writes = [] ∧ self.callbacks = [] := by
  have hs := h.single
  rw [hr] at hs
  exact alone hs

theorem single_write {self : PoolHttpConnection} (h : Single self) {reply : Reply}
    {writes : List Reply} (hw : self.socket.writes = reply :: writes) :
    writes = [] ∧ self.socket.reads = [] ∧ self.callbacks = [] := by
  have hs := h.single
  rw [hw, Nat.add_comm self.socket.reads.length] at hs
  exact alone hs

theorem single_callback {self : PoolHttpConnection} (h : Single self) {w : Callback Http}
    {before after : List (Callback Http)} (hw : self.callbacks = before ++ w :: after) :
    before = [] ∧ after = [] ∧ self.socket.reads = [] ∧ self.socket.writes = [] := by
  have hs := h.single
  have hlength : self.callbacks.length = (w :: (before ++ after)).length := by
    rw [hw]
    exact List.perm_middle.length_eq
  rw [hlength, Nat.add_comm, ← Nat.add_assoc] at hs
  obtain ⟨hrest, hreads, hwrites⟩ := alone hs
  obtain ⟨hbefore, hafter⟩ := List.append_eq_nil_iff.mp hrest
  exact ⟨hbefore, hafter, hreads, hwrites⟩

/-- Closing leaves everything in flight as it is. -/
theorem single_close {self : PoolHttpConnection} (h : Single self) : Single self.close := by
  by_cases hd : self.deleted = 0
  · rw [close, if_pos hd]
    exact ⟨by simpa using h.single, by simpa using h.answering, by simp⟩
  · rw [close, if_neg hd]
    exact ⟨h.single, h.answering, fun hopen => absurd (h.closed hopen) hd⟩

/-- What a parse leaves behind, before its result is looked at. -/
theorem parsed_single (self : PoolHttpConnection) {a : Arrival} {declined : Bool}
    (hreads : self.socket.reads = []) (hwrites : self.socket.writes = [])
    (hcallbacks : self.callbacks = []) (hclosed : self.socket.deleted = false → self.deleted = 0)
    (hleft : Left a.outcome declined a.replies a.callbacks) : Single (self.parsed parse a) := by
  rw [parsed]
  generalize a.replies = replies at hleft
  generalize a.callbacks = callbacks at hleft
  cases hleft with
  | declined | nothing | reply =>
    exact ⟨by simp [leave, hreads, hwrites, hcallbacks], by simp [leave, hcallbacks], hclosed⟩
  | callback w hd ok answers =>
    refine ⟨by simp [leave, hreads, hwrites, hcallbacks], ?_, hclosed⟩
    simpa [leave, hcallbacks] using answers

/-- A parse that asks for more data has left nothing. -/
theorem parsed_idle (self : PoolHttpConnection) {a : Arrival}
    (hreads : self.socket.reads = []) (hwrites : self.socket.writes = [])
    (hcallbacks : self.callbacks = [])
    (hleft : Left a.outcome false a.replies a.callbacks) (h : a.outcome.result ≠ .ok) :
    a.replies = [] ∧ a.callbacks = [] ∧ (self.parsed parse a).socket.reads = [] ∧
      (self.parsed parse a).socket.writes = [] ∧ (self.parsed parse a).callbacks = [] := by
  rw [parsed]
  generalize a.replies = replies at hleft
  generalize a.callbacks = callbacks at hleft
  cases hleft with
  | declined hd => cases hd
  | nothing => simp [leave, hreads, hwrites, hcallbacks]
  | reply m hd ok => exact absurd ok h
  | callback w hd ok => exact absurd ok h

/-- The step lemma: an operation that completes starts at most one other. -/
theorem single_step {self next : PoolHttpConnection} {e : Event} (h : Single self)
    (hstep : Step parse server self e next) : Single next := by
  cases hstep with
  | @readDone read reads a pending present arrives =>
    obtain ⟨rfl, hwrites, hcallbacks⟩ := single_read h pending
    have hleft := delivery_left parse server arrives.lawful arrives.executes
    have hparsed := parsed_single parse (self.received read a.data) (by simp [pending])
      hwrites hcallbacks h.closed hleft
    rw [onRead]
    cases hd : declines parse self.context a.outcome.components with
    | true => simpa [hd, afterParse] using single_close hparsed
    | false =>
      rw [hd] at hleft
      simp only [received_context, hd, Bool.false_eq_true, if_false]
      cases hresult : a.outcome.result with
      | ok => exact ⟨hparsed.single, hparsed.answering, hparsed.closed⟩
      | error | cancelled => exact single_close hparsed
      | needMoreData =>
        obtain ⟨-, -, hr, hw, hc⟩ := parsed_idle parse (self.received read a.data)
          (by simp [pending]) hwrites hcallbacks hleft (by simp [hresult])
        exact ⟨by simp [afterParse, hr, hw, hc], by simp [afterParse, hc], hparsed.closed⟩
  | @readFailed read reads status pending failed =>
    obtain ⟨rfl, hwrites, hcallbacks⟩ := single_read h pending
    exact single_close ⟨by simp [hwrites, hcallbacks], h.answering, h.closed⟩
  | @written reply writes status pending cancelled =>
    obtain ⟨rfl, hreads, hcallbacks⟩ := single_write h pending
    refine ⟨?_, h.answering, h.closed⟩
    simp [onWrite, socketShutdown, hreads, hcallbacks]
  | @answered callback before after callbacks replies waiting x executes =>
    obtain ⟨rfl, rfl, hreads, hwrites⟩ := single_callback h waiting
    have hanswers := h.answering callback (by simp [waiting]) x
    rcases answers_executes hanswers executes with ⟨m, rfl, rfl⟩ | ⟨rfl, w, rfl, hw⟩
    · exact ⟨by simp [leave, hreads, hwrites], by simp [leave], h.closed⟩
    · exact ⟨by simp [leave, hreads, hwrites], by simpa [leave] using hw, h.closed⟩

theorem single_of_run {self last : PoolHttpConnection}
    {steps : List (PoolHttpConnection × Event)} (h : Run parse server self steps last)
    (hself : Single self) : Single last :=
  run_keeps Single (fun _ _ => True)
    (fun _ _ _ hmid _ hstep => single_step parse server hmid hstep) h hself fun _ _ => trivial

/-- A parse without a tail has nothing to copy. -/
theorem copied_nothing (window : List UInt8) : Copied window 0 [] :=
  ⟨rfl, fun _ => by simp [PoolHttpConnection.tail]⟩

/-- A parse that ends a request with the whole window. -/
theorem lawful_ends (front : List Component) (d window : List UInt8)
    (hfront : ∀ d', .dataLast d' ∉ front) :
    Outcome.Lawful ⟨front ++ [.dataLast d], .ok, 0⟩ window := by
  refine ⟨Nat.zero_le _, by simp, fun d' hd => ⟨rfl, front, ?_, hfront⟩⟩
  rcases List.mem_append.mp hd with hd | hd
  · exact absurd hd (hfront d')
  · rw [List.mem_singleton.mp hd]

/-- A request for a function, with a body that is no JSON text. -/
def invalidBody : Arrival where
  data := bytes "POST /api/backendQueryCoins HTTP/1.1\r\nContent-Length: 1\r\n\r\nx"
  outcome := ⟨[.method .hmPost, .uriPathElement (bytes "api"),
    .uriPathElement (bytes "backendQueryCoins"), .other, .other, .dataLast (bytes "x")], .ok, 0⟩
  copied := []
  replies := [statusReply "invalid_json"]
  callbacks := []

theorem invalidBody_delivered : (deliver parseEmpty {} invalidBody.outcome.components).2 =
    [.replyWithStatus "invalid_json"] := rfl

theorem invalidBody_arrives (buffer : Buffer) :
    Arrives parseEmpty server (run buffer) ⟨0, bufferSize⟩ invalidBody := by
  refine ⟨by decide, by decide, ?_, copied_nothing _, ?_⟩
  · exact lawful_ends [.method .hmPost, .uriPathElement (bytes "api"),
      .uriPathElement (bytes "backendQueryCoins"), .other, .other] _ _ (by simp)
  · rw [show (run buffer).context = {} from rfl, invalidBody_delivered]
    exact executesAll_singleton.mpr (.write _ .done)

end ConnectionRuns
