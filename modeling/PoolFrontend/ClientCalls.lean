import PoolFrontend.AnswerOrder
import PoolFrontend.PoolClient
import PoolFrontend.RequestShapes
import PoolFrontend.StringArguments

/-!
# Calls of the client

A method and its function, across the connection. On the way there the function runs on the
arguments of the method. On the way back the client finds the status of each call in the reply
that belongs to it.
-/
namespace ClientCalls

open CallbackProgram CallbackActivation CallbackReferences CallbackMessages Json JsonSchema
open Server hiding aioWrite
open Router Routing ReplyForms Endpoints RequestArguments PoolClient
open Connection hiding Step Run run_keeps Event
open Connection.PoolHttpConnection ConnectionRuns Lifetime AnswerCount Listener AnswerOrder
open RequestShapes (loginRequest login loginText)

variable (parse : List UInt8 → Option Value) (server : PoolHttpServer)

def action (m : Method) : Action := .invoke m.function (.object m.posts.data)

theorem method_answered (m : Method) {context : Context} {r : Request}
    (hmethod : r.method = .hmPost)
    (hpath : r.path = [bytes "api", bytes m.posts.functionName])
    (hbody : parse (requestText (context.request ++ r.body)) = some (.object m.posts.data)) :
    (deliver parse context r.components).2 = [action m] := by
  have hfound := method_found m
  have hrouted : routed r.method r.path = some m.function := by
    simp [hmethod, hpath, routed, hfound]
  have hobject : requestObject parse (context.request ++ r.body) = some m.posts.data := by
    simp [requestObject, hbody]
  rw [(deliver_request parse context r).1, answerTo, hrouted]
  simp [hobject, findFunction_handler hfound, action]

/-- The exceptions of `__call__` on a decoded reply. -/
inductive Failure where
  | noStatus
  | failed : String → Failure

/-- `result["status"]`; of the members of one name a dictionary has the last. -/
def statusOf : Value → Option Value
  | .object ms => ms.reverse.lookup "status"
  | _ => none

/-- `__call__` on a decoded reply. -/
def checked (functionName : String) (requiredStatus : Option String) (result : Value) :
    Except Failure Value :=
  match requiredStatus with
  | none => .ok result
  | some required =>
    match statusOf result with
    | none => .error .noStatus
    | some (.string status) =>
      if status ≠ required then .error (.failed functionName) else .ok result
    | some _ => .error (.failed functionName)

/-- The reply is a document whose status the client can read, and nothing else decides. -/
def Settles (m : Method) (reply : Reply) : Prop :=
  ∃ result status, reply = .reply200 (.json result) ∧ ∀ required,
    checked m.posts.functionName required result =
      if required.getD status = status then .ok result
      else .error (.failed m.posts.functionName)

theorem settles_status (m : Method) {result : Value} {status : String}
    (h : statusOf result = some (.string status)) : Settles m (.reply200 (.json result)) := by
  refine ⟨result, status, rfl, fun required => ?_⟩
  cases required with
  | none => simp [checked]
  | some required =>
    by_cases heq : required = status
    · simp [checked, h, heq]
    · have hne : status ≠ required := fun hsame => heq hsame.symm
      simp [checked, h, heq, hne]

/-- The form of an object with a text as its status. -/
def hasStatus : Form → Bool
  | .object fields => (fields.reverse.lookup "status").any Schema.isText
  | _ => false

theorem admitted_settles (m : Method) {form : Form} {reply : Reply} (hform : hasStatus form = true)
    (h : form.admits reply = true) : Settles m reply := by
  unfold Form.admits at h
  split at h
  · rename_i fields value
    cases value with
    | object ms =>
      obtain ⟨schema, hschema, htext⟩ := (Option.any_eq_true _ _).mp hform
      have haccepts : acceptsMembers fields ms = true := by simpa using h
      obtain ⟨value, hvalue, htype⟩ :=
        acceptsMembers_lookup (acceptsMembers_reverse haccepts) hschema
      obtain ⟨status, rfl⟩ := accepts_text htext htype
      exact settles_status m hvalue
    | _ => simp [Schema.accepts] at h
  · cases hform
  · cases hform
  · cases hform
  · cases h

/-- Every function the client knows answers with a status. -/
theorem client_forms (m : Method) : ∀ form ∈ replyForms m.function, hasStatus form = true := by
  cases m <;> simp only [Method.function] <;> decide

theorem says_settles (m : Method) {reply : Reply} (h : Says (action m) reply) :
    Settles m reply := by
  obtain ⟨form, hmem, hadmits⟩ := h
  exact admitted_settles m (client_forms m form hmem) hadmits

section Calls

variable {asyncio : ReferenceCounting} {events : List Event} {last : Listening} {i : Nat}
  {conn : Counting}

/-- In every run of the server, once a connection has brought one call of the client, either the
socket has been handed one reply and nothing waits, or there is no reply yet and one callback
waits. The reply has a status that the client can read, and it alone decides whether the call
returns; the callback writes no other reply, whatever the core answers. -/
theorem call_settled (h : Interleaving.Run (Step asyncio parse server) listening events last)
    (hconn : last.connections[i]? = some conn) {m : Method}
    (hcall : ((takenBy i events).flatMap fun taken => ended parse taken.before taken.event) =
      [action m]) :
    (∃ reply, sent conn.conn = [reply] ∧ Settles m reply ∧ conn.conn.callbacks = []) ∨
      (sent conn.conn = [] ∧
        ∃ callback, conn.conn.callbacks = [callback] ∧ Promises (Settles m) callback) := by
  obtain ⟨⟨answered, rest, hended, hsent, hrest⟩, -⟩ := inOrder_of_run parse server h hconn
  rw [hcall] at hended
  rcases List.append_eq_singleton_iff.mp hended.symm with ⟨rfl, rfl⟩ | ⟨rfl, rfl⟩
  · obtain ⟨callback, callbacks, hpromises, hnone, hcallbacks⟩ :=
      List.forall₂_cons_left_iff.mp hrest
    rw [List.forall₂_nil_left_iff.mp hnone] at hcallbacks
    refine .inr ⟨List.forall₂_nil_left_iff.mp hsent, callback, hcallbacks, fun x => ?_⟩
    exact writes_imp (fun reply => says_settles m) (hpromises x)
  · obtain ⟨reply, replies, hsays, hnone, hreplies⟩ := List.forall₂_cons_left_iff.mp hsent
    rw [List.forall₂_nil_left_iff.mp hnone] at hreplies
    exact .inl ⟨reply, hreplies, says_settles m hsays, List.forall₂_nil_left_iff.mp hrest⟩

def enumerateRequest : Request where
  method := .hmPost
  path := [bytes "api", bytes "instanceEnumerateAll"]
  fragments := []
  last := bytes "\x7b\x7d"
  components := [.method .hmPost, .uriPathElement (bytes "api"),
    .uriPathElement (bytes "instanceEnumerateAll"), .other, .other,
    .dataLast (bytes "\x7b\x7d")]
  shape := rfl

/-- The request in one piece. -/
def enumerateAll : Arrival where
  data := bytes ("POST /api/instanceEnumerateAll HTTP/1.1\r\n" ++
    "Content-Length: 2\r\n\r\n\x7b\x7d")
  outcome := ⟨enumerateRequest.components, .ok, 0⟩
  copied := []
  replies := [.reply200 (.json (.object [("status", .string "ok"), ("instances", .array [])]))]
  callbacks := []

theorem enumerateAll_delivered :
    (deliver parseEmpty (PoolHttpConnection.run zeros).context enumerateAll.outcome.components).2 =
      [action .instanceEnumerateAll] :=
  method_answered parseEmpty .instanceEnumerateAll (r := enumerateRequest) rfl rfl rfl

theorem enumerateAll_arrives : Arrives parseEmpty emptyServer (PoolHttpConnection.run zeros)
    ⟨0, bufferSize⟩ enumerateAll := by
  refine ⟨by decide, by decide, ?_, ConnectionRuns.copied_nothing _, ?_⟩
  · exact ConnectionRuns.lawful_ends [.method .hmPost, .uriPathElement (bytes "api"),
      .uriPathElement (bytes "instanceEnumerateAll"), .other, .other] _ _ (by simp)
  · rw [enumerateAll_delivered]
    exact executesAll_singleton.mpr (.write _ .done)

theorem enumerateAll_settled : ∃ events last conn reply,
    Interleaving.Run (Step plainCounting parseEmpty emptyServer) listening events last ∧
      last.connections[0]? = some conn ∧ sent conn.conn = [reply] ∧
        Settles .instanceEnumerateAll reply := by
  have hcounted : CountedAll plainCounting (programsOf parseEmpty emptyServer
      (PoolHttpConnection.run zeros) enumerateAll) 2 enumerateAll.replies enumerateAll.callbacks
      [2] 3 := by
    rw [programsOf, enumerateAll_delivered]
    exact countedAll_write _ 2
  have hrun := firstRead_run _ _ enumerateAll_arrives hcounted
  have hended : (deliver parseEmpty (PoolHttpConnection.run zeros).context
      enumerateAll.outcome.components).2 ++ [] = [action .instanceEnumerateAll] := by
    rw [enumerateAll_delivered]
    rfl
  have hcallbacks : (((PoolHttpConnection.run zeros).received ⟨0, bufferSize⟩
      enumerateAll.data).onRead parseEmpty enumerateAll).callbacks = [] := by
    rw [onRead, afterParse_callbacks, parsed, leave_callbacks]
    rfl
  rcases call_settled (i := 0) _ _ hrun rfl hended with ⟨reply, hsent, hsettles, -⟩ | hwaits
  · exact ⟨_, _, _, reply, hrun, rfl, hsent, hsettles⟩
  · obtain ⟨-, callback, hone, -⟩ := hwaits
    rw [hcallbacks] at hone
    cases hone

end Calls

end ClientCalls
