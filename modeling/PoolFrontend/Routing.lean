import PoolFrontend.Router

/-!
# What a request is answered with

The function reached by a path and the action for a complete body, stated without
the state machine; `deliver_request` connects them to the deliveries.
-/
namespace Routing

open Json Router

variable (parse : List UInt8 → Option Value)

/-- The function a path leads to; a path that fails has none. -/
def routed (method : HttpMethod) : List (List UInt8) → Option FunctionTy
  | [] => some .fnUnknown
  | [first] => if first = bytes "api" then some .fnApi else none
  | [first, name] =>
    if first = bytes "api" then
      match findFunction name with
      | some (m, f) => if m = method then some f else none
      | none => none
    else none
  | _ => none

/-- The JSON object in a body. -/
def requestObject (request : List UInt8) : Option Members :=
  match parse (requestText request) with
  | some (.object ms) => some ms
  | _ => none

/-- The single action for a request, given what the connection already holds. -/
def answerTo (held : List UInt8) (r : Request) : Action :=
  match routed r.method r.path with
  | none => .reply404
  | some f =>
    match requestObject parse (held ++ r.body) with
    | none => .replyWithStatus "invalid_json"
    | some ms => if (handlerOf f).isSome then .invoke f (.object ms) else .reply404

/-- The bytes a request leaves in the connection. -/
def leaves (r : Request) : List UInt8 := if (routed r.method r.path).isSome then r.body else []

theorem findFunction_mem {name : List UInt8} {m : HttpMethod} {f : FunctionTy}
    (h : findFunction name = some (m, f)) :
    ∃ s, (s, m, f) ∈ functionNameMap ∧ bytes s = name := by
  unfold findFunction at h
  cases he : functionNameMap.find? fun entry => bytes entry.1 = name with
  | none => simp [he] at h
  | some e =>
    have hm := List.mem_of_find?_eq_some he
    have hn := List.find?_some he
    rw [he] at h
    obtain ⟨s, p⟩ := e
    cases Option.some.inj h
    exact ⟨s, hm, by simpa using hn⟩

theorem map_handlers : ∀ e ∈ functionNameMap, (handlerOf e.2.2).isSome = true := by decide

/-- Every name of the table has a handler. -/
theorem findFunction_handler {name : List UInt8} {m : HttpMethod} {f : FunctionTy}
    (h : findFunction name = some (m, f)) : (handlerOf f).isSome = true := by
  obtain ⟨s, hm, _⟩ := findFunction_mem h
  exact map_handlers _ hm

theorem findFunction_not_api {name : List UInt8} {m : HttpMethod} {f : FunctionTy}
    (h : findFunction name = some (m, f)) : f ≠ .fnUnknown ∧ f ≠ .fnApi := by
  have hs := findFunction_handler h
  constructor <;> rintro rfl <;> simp [handlerOf] at hs

/-- Components of other types change nothing. -/
theorem deliver_filter (cs : List Component) (context : Context) :
    deliver parse context cs = deliver parse context (cs.filter (· ≠ .other)) := by
  induction cs generalizing context with
  | nil => rfl
  | cons c cs ih =>
    by_cases h : c = .other
    · subst h
      have hf : (Component.other :: cs).filter (· ≠ .other) = cs.filter (· ≠ .other) := by simp
      rw [hf, ← ih]
      simp [deliver, onParse]
    · have hf : (c :: cs).filter (· ≠ .other) = c :: cs.filter (· ≠ .other) := by simp [h]
      rw [hf]
      simp only [deliver]
      rw [ih]

theorem deliver_data (fragments : List (List UInt8)) (rest : List Component)
    (context : Context) :
    deliver parse context (fragments.map .data ++ rest) =
      deliver parse { context with request := context.request ++ fragments.flatten } rest := by
  induction fragments generalizing context with
  | nil => simp
  | cons d ds ih =>
    have h := ih { context with request := context.request ++ d }
    simpa [deliver, onParse] using h

/-- A path element past a function fails. -/
theorem deliver_past {context : Context} (h : context.function ≠ .fnUnknown)
    (h' : context.function ≠ .fnApi) (data : List UInt8) (rest : List Component) :
    deliver parse context (.uriPathElement data :: rest) = (context, [.reply404]) := by
  simp [deliver, onParse, h, h']

theorem deliver_path (path : List (List UInt8)) (rest : List Component) (m : HttpMethod)
    (held : List UInt8) :
    match routed m path with
    | some f => deliver parse ⟨m, .fnUnknown, held⟩ (path.map .uriPathElement ++ rest) =
        deliver parse ⟨m, f, held⟩ rest
    | none => ∃ f, deliver parse ⟨m, .fnUnknown, held⟩ (path.map .uriPathElement ++ rest) =
        (⟨m, f, held⟩, [.reply404]) := by
  cases path with
  | nil => simp [routed]
  | cons first others =>
    by_cases hfirst : first = bytes "api"
    · have hstep : ∀ cs, deliver parse ⟨m, .fnUnknown, held⟩ (.uriPathElement first :: cs) =
          deliver parse ⟨m, .fnApi, held⟩ cs := by
        intro cs
        simp [deliver, onParse, hfirst]
      cases others with
      | nil =>
        simp only [routed, hfirst, if_true, List.map_cons, List.map_nil, List.cons_append,
          List.nil_append]
        exact hfirst ▸ hstep rest
      | cons name more =>
        rw [List.map_cons, List.cons_append, hstep]
        cases hfind : findFunction name with
        | none =>
          have hnone : routed m (first :: name :: more) = none := by
            cases more <;> simp [routed, hfind]
          rw [hnone]
          exact ⟨.fnApi, by simp [deliver, onParse, hfind]⟩
        | some e =>
          obtain ⟨m', f⟩ := e
          by_cases hm : m' = m
          · subst hm
            have hnot := findFunction_not_api hfind
            have hname : ∀ cs, deliver parse ⟨m', .fnApi, held⟩ (.uriPathElement name :: cs) =
                deliver parse ⟨m', f, held⟩ cs := by
              intro cs
              simp [deliver, onParse, hfind]
            rw [List.map_cons, List.cons_append, hname]
            cases more with
            | nil => simp [routed, hfirst, hfind]
            | cons extra more =>
              have hnone : routed m' (first :: name :: extra :: more) = none := rfl
              rw [hnone]
              exact ⟨f, deliver_past parse hnot.1 hnot.2 extra _⟩
          · have hnone : routed m (first :: name :: more) = none := by
              cases more <;> simp [routed, hfind, hm]
            rw [hnone]
            exact ⟨.fnApi, by simp [deliver, onParse, hfind, hm]⟩
    · have hnone : routed m (first :: others) = none := by
        rcases others with _ | ⟨name, _ | ⟨extra, more⟩⟩ <;> simp [routed, hfirst]
      rw [hnone]
      exact ⟨.fnUnknown, by simp [deliver, onParse, hfirst]⟩

theorem onDataLast_action (f : FunctionTy) (request : List UInt8) :
    (onDataLast parse f request).1 =
      match requestObject parse request with
      | none => .replyWithStatus "invalid_json"
      | some ms => if (handlerOf f).isSome then .invoke f (.object ms) else .reply404 := by
  unfold onDataLast requestObject
  cases hp : parse (requestText request) with
  | none => rfl
  | some document =>
    cases document with
    | object ms => cases hf : handlerOf f <;> simp [Value.isObject]
    | _ => rfl

theorem deliver_last (context : Context) (last : List UInt8) :
    deliver parse context [.dataLast last] =
      ({ context with request := context.request ++ last },
        [(onDataLast parse context.function (context.request ++ last)).1]) := by
  by_cases h : (onDataLast parse context.function (context.request ++ last)).2 = true
  · simp [deliver, onParse, h]
  · simp [deliver, onParse, h]

/-- The run rule: a request is answered with exactly one action, and what it leaves
is appended to the body the connection holds. -/
theorem deliver_request (context : Context) (r : Request) :
    (deliver parse context r.components).2 = [answerTo parse context.request r] ∧
      (deliver parse context r.components).1.request = context.request ++ leaves r := by
  have hmethod : ∀ cs, deliver parse context (.method r.method :: cs) =
      deliver parse ⟨r.method, .fnUnknown, context.request⟩ cs := by
    intro cs
    simp [deliver, onParse]
  rw [deliver_filter, r.shape, hmethod]
  have hpath := deliver_path parse r.path (r.fragments.map .data ++ [.dataLast r.last]) r.method
    context.request
  cases hr : routed r.method r.path with
  | none =>
    rw [hr] at hpath
    obtain ⟨f, hf⟩ := hpath
    rw [hf]
    simp [answerTo, leaves, hr]
  | some f =>
    rw [hr] at hpath
    rw [hpath, deliver_data, deliver_last, onDataLast_action]
    simp [answerTo, leaves, hr, Request.body]

theorem onDataLast_stops {f : FunctionTy} {request : List UInt8}
    (h : (onDataLast parse f request).1 = .reply404) : (onDataLast parse f request).2 = false := by
  unfold onDataLast at h ⊢
  cases hp : parse (requestText request) with
  | none => simp [hp] at h
  | some document =>
    cases hd : document.isObject with
    | false => simp [hp, hd] at h
    | true => cases hf : handlerOf f <;> simp_all

/-- The connection declines more exactly with its 404. -/
theorem onParse_stops {context : Context} {c : Component}
    (h : (onParse parse context c).action = some .reply404) :
    (onParse parse context c).proceed = false := by
  cases c with
  | method m | data d | other => simp [onParse] at h
  | dataLast last => exact onDataLast_stops parse (Option.some.inj h)
  | uriPathElement data =>
    by_cases hu : context.function = .fnUnknown ∧ data = bytes "api"
    · simp [onParse, hu] at h
    · by_cases ha : context.function = .fnApi
      · cases hfind : findFunction data with
        | none => simp [onParse, ha, hfind]
        | some e =>
          by_cases hm : e.1 = context.method
          · simp [onParse, ha, hfind, hm] at h
          · simp [onParse, ha, hfind, hm]
      · simp [onParse, hu, ha]

/-- Once a request has been answered with 404 no later component is processed. -/
theorem deliver_stops (cs more : List Component) (context : Context)
    (h : Action.reply404 ∈ (deliver parse context cs).2) :
    deliver parse context (cs ++ more) = deliver parse context cs := by
  induction cs generalizing context with
  | nil => simp [deliver] at h
  | cons c cs ih =>
    simp only [deliver, List.cons_append] at h ⊢
    by_cases hp : (onParse parse context c).proceed = true
    · rw [if_pos hp] at h
      have haction : Action.reply404 ∉ (onParse parse context c).action.toList := by
        intro hm
        have hstop := onParse_stops parse (Option.mem_toList.mp hm)
        rw [hp] at hstop
        cases hstop
      have hrest : Action.reply404 ∈ (deliver parse (onParse parse context c).context cs).2 :=
        (List.mem_append.mp h).resolve_left haction
      rw [if_pos hp, if_pos hp, ih _ hrest]
    · rw [if_neg hp, if_neg hp]

/-- A path that never fails: it stops short of a name, or names a function of the method. -/
def PathAccepted (r : Request) : Prop :=
  r.path = [] ∨ r.path = [bytes "api"] ∨
    ∃ name f, r.path = [bytes "api", name] ∧ findFunction name = some (r.method, f)

theorem routed_named_iff (m : HttpMethod) (path : List (List UInt8)) (f : FunctionTy)
    (hf : (handlerOf f).isSome = true) :
    routed m path = some f ↔
      ∃ name, path = [bytes "api", name] ∧ findFunction name = some (m, f) := by
  constructor
  · intro h
    rcases path with _ | ⟨first, _ | ⟨name, _ | ⟨extra, more⟩⟩⟩
    · rw [← Option.some.inj h] at hf
      cases hf
    · by_cases hfirst : first = bytes "api"
      · rw [routed, if_pos hfirst] at h
        rw [← Option.some.inj h] at hf
        cases hf
      · simp [routed, hfirst] at h
    · by_cases hfirst : first = bytes "api"
      · cases hfind : findFunction name with
        | none => simp [routed, hfind] at h
        | some e =>
          obtain ⟨m', f'⟩ := e
          by_cases hm : m' = m
          · have hff : f' = f := by simpa [routed, hfirst, hfind, hm] using h
            exact ⟨name, by rw [hfirst], by rw [hfind, hm, hff]⟩
          · simp [routed, hfind, hm] at h
      · simp [routed, hfirst] at h
    · simp [routed] at h
  · rintro ⟨name, rfl, hfind⟩
    simp [routed, hfind]

theorem routed_isSome (m : HttpMethod) (path : List (List UInt8))
    (h : (routed m path).isSome = true) :
    path = [] ∨ path = [bytes "api"] ∨
      ∃ name f, path = [bytes "api", name] ∧ findFunction name = some (m, f) := by
  rcases path with _ | ⟨first, _ | ⟨name, _ | ⟨extra, more⟩⟩⟩
  · exact Or.inl rfl
  · by_cases hfirst : first = bytes "api"
    · exact Or.inr (Or.inl (by rw [hfirst]))
    · simp [routed, hfirst] at h
  · by_cases hfirst : first = bytes "api"
    · cases hfind : findFunction name with
      | none => simp [routed, hfind] at h
      | some e =>
        obtain ⟨m', f⟩ := e
        by_cases hm : m' = m
        · exact Or.inr (Or.inr ⟨name, f, by rw [hfirst], by rw [hfind, hm]⟩)
        · simp [routed, hfind, hm] at h
    · simp [routed, hfirst] at h
  · simp [routed] at h

theorem pathAccepted_iff (r : Request) :
    PathAccepted r ↔ (routed r.method r.path).isSome = true := by
  constructor
  · rintro (h | h | ⟨name, f, h, hfind⟩)
    · simp [h, routed]
    · simp [h, routed]
    · simp [h, routed, hfind]
  · exact routed_isSome r.method r.path

theorem answerTo_invoke_iff (held : List UInt8) (r : Request) (f : FunctionTy)
    (document : Value) :
    answerTo parse held r = .invoke f document ↔
      ∃ name ms, r.path = [bytes "api", name] ∧ findFunction name = some (r.method, f) ∧
        requestObject parse (held ++ r.body) = some ms ∧ document = .object ms := by
  constructor
  · intro h
    cases hr : routed r.method r.path with
    | none => simp [answerTo, hr] at h
    | some g =>
      cases ho : requestObject parse (held ++ r.body) with
      | none => simp [answerTo, hr, ho] at h
      | some ms =>
        by_cases hs : (handlerOf g).isSome = true
        · have hg : g = f ∧ Value.object ms = document := by
            simpa [answerTo, hr, ho, hs] using h
          obtain ⟨rfl, rfl⟩ := hg
          obtain ⟨name, hpath, hfind⟩ := (routed_named_iff _ _ _ hs).mp hr
          exact ⟨name, ms, hpath, hfind, rfl, rfl⟩
        · simp [answerTo, hr, ho, hs] at h
  · rintro ⟨name, ms, hpath, hfind, ho, rfl⟩
    have hs := findFunction_handler hfind
    have hr := (routed_named_iff _ _ _ hs).mpr ⟨name, hpath, hfind⟩
    simp [answerTo, hr, ho, hs]

/-- An answer that is no handler is one of the two errors. -/
theorem answerTo_error (held : List UInt8) (r : Request)
    (h : ∀ f document, answerTo parse held r ≠ .invoke f document) :
    (PathAccepted r ∧ requestObject parse (held ++ r.body) = none ∧
        answerTo parse held r = .replyWithStatus "invalid_json") ∨
      (¬ (PathAccepted r ∧ requestObject parse (held ++ r.body) = none) ∧
        answerTo parse held r = .reply404) := by
  rw [pathAccepted_iff]
  cases hr : routed r.method r.path with
  | none => simp [answerTo, hr]
  | some f =>
    cases ho : requestObject parse (held ++ r.body) with
    | none => simp [answerTo, hr, ho]
    | some ms =>
      by_cases hs : (handlerOf f).isSome = true
      · exact absurd (by simp [answerTo, hr, ho, hs]) (h f (.object ms))
      · simp [answerTo, hr, ho, hs]

/-- Routing of one request on a fresh connection: the handler of `f` is invoked exactly
for the path of `f` and an object, there is one action in all, what is no invocation is
the fitting error, and nothing is processed after a 404. -/
theorem single_request_routed (r : Request) :
    (∀ f document, .invoke f document ∈ (deliver parse {} r.components).2 ↔
      ∃ name ms, r.path = [bytes "api", name] ∧ findFunction name = some (r.method, f) ∧
        parse (requestText r.body) = some (.object ms) ∧ document = .object ms) ∧
    (∀ f document, .invoke f document ∈ (deliver parse {} r.components).2 →
      (handlerOf f).isSome = true) ∧
    (deliver parse {} r.components).2.length = 1 ∧
    ((∀ f document, .invoke f document ∉ (deliver parse {} r.components).2) →
      (PathAccepted r ∧ (∀ ms, parse (requestText r.body) ≠ some (.object ms)) ∧
          (deliver parse {} r.components).2 = [.replyWithStatus "invalid_json"]) ∨
        (¬ (PathAccepted r ∧ ∀ ms, parse (requestText r.body) ≠ some (.object ms)) ∧
          (deliver parse {} r.components).2 = [.reply404])) ∧
    (∀ before c after, r.components = before ++ c :: after →
      Action.reply404 ∈ (deliver parse {} (before ++ [c])).2 →
        deliver parse {} r.components = deliver parse {} (before ++ [c])) := by
  have hone : (deliver parse {} r.components).2 = [answerTo parse [] r] :=
    (deliver_request parse {} r).1
  have hobject : ∀ ms, requestObject parse r.body = some ms ↔
      parse (requestText r.body) = some (.object ms) := by
    intro ms
    unfold requestObject
    cases hp : parse (requestText r.body) with
    | none => simp
    | some v => cases v <;> simp
  have hnone : requestObject parse r.body = none ↔
      ∀ ms, parse (requestText r.body) ≠ some (.object ms) := by
    simp only [ne_eq, ← hobject, Option.eq_none_iff_forall_ne_some]
  have hinvoke : ∀ f document, .invoke f document ∈ (deliver parse {} r.components).2 ↔
      answerTo parse [] r = .invoke f document := by
    intro f document
    rw [hone, List.mem_singleton, eq_comm]
  refine ⟨?_, ?_, ?_, ?_, ?_⟩
  · intro f document
    rw [hinvoke, answerTo_invoke_iff]
    simp [hobject]
  · intro f document h
    obtain ⟨name, ms, _, hfind, _⟩ := (answerTo_invoke_iff parse _ _ _ _).mp ((hinvoke _ _).mp h)
    exact findFunction_handler hfind
  · rw [hone, List.length_singleton]
  · intro h
    have herror := answerTo_error parse [] r (fun f document he =>
      h f document ((hinvoke _ _).mpr he))
    rw [List.nil_append, hnone] at herror
    rw [hone]
    rcases herror with ⟨hp, ho, ha⟩ | ⟨hp, ha⟩
    · exact Or.inl ⟨hp, ho, by rw [ha]⟩
    · exact Or.inr ⟨hp, by rw [ha]⟩
  · intro before c after hcs h404
    have happend : before ++ c :: after = (before ++ [c]) ++ after := by simp
    rw [hcs, happend]
    exact deliver_stops parse _ _ _ h404

/-- A parser that knows one text. -/
def parseOnly (text : List UInt8) (v : Value) (given : List UInt8) : Option Value :=
  if given = text then some v else none

def parseEmpty : List UInt8 → Option Value := parseOnly (bytes "\x7b\x7d") (.object [])

end Routing
