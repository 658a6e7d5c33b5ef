import PoolFrontend.Routing

/-!
# Requests on one connection

The method and the function are reset at every `Method` component; the body is
not. What the connection holds before a request is what the earlier ones left.
-/
namespace RequestIsolation

open Json Router Routing

variable (parse : List UInt8 → Option Value)

/-- The run rule: the answer depends on the earlier requests only through the bytes
they left. -/
theorem serveAll_answers (rs : List Request) (context : Context) (k : Nat) :
    (serveAll parse context rs)[k]? =
      rs[k]?.map fun r => [answerTo parse (context.request ++ (rs.take k).flatMap leaves) r] := by
  induction rs generalizing context k with
  | nil => simp [serveAll]
  | cons r rs ih =>
    have hr := deliver_request parse context r
    cases k with
    | zero => simp [serveAll, hr.1]
    | succ k =>
      rw [serveAll, List.getElem?_cons_succ, ih, hr.2]
      simp

theorem leaves_nil {r : Request} (h : ¬ PathAccepted r ∨ r.body = []) : leaves r = [] := by
  rcases h with hpath | hbody
  · rw [pathAccepted_iff] at hpath
    simp [leaves, hpath]
  · simp [leaves, hbody]

theorem answerTo_rejected {r : Request} (h : ¬ PathAccepted r) (held : List UInt8) :
    answerTo parse held r = .reply404 := by
  rw [pathAccepted_iff, Bool.not_eq_true, Option.isSome_eq_false_iff,
    Option.isNone_iff_eq_none] at h
  simp [answerTo, h]

/-- As long as every earlier request failed at its path or had an empty body, or the
request fails at its own path, it is answered as the first on a fresh connection. -/
theorem isolated_while_no_body (rs : List Request) (k : Nat) (r : Request) (hr : rs[k]? = some r)
    (h : (∀ earlier ∈ rs.take k, ¬ PathAccepted earlier ∨ earlier.body = []) ∨
      ¬ PathAccepted r) :
    (serveAll parse {} rs)[k]? = some (deliver parse {} r.components).2 := by
  have hfresh : (deliver parse {} r.components).2 = [answerTo parse [] r] :=
    (deliver_request parse {} r).1
  rw [serveAll_answers, hr, hfresh]
  rcases h with hearlier | hpath
  · have hleft : (rs.take k).flatMap leaves = [] := by
      rw [List.flatMap_eq_nil_iff]
      intro earlier he
      exact leaves_nil (hearlier earlier he)
    simp [hleft]
  · simp [answerTo_rejected parse hpath]

/-- A parser that knows one text. -/
def parseEmptyObject (text : List UInt8) : Option Value :=
  if text = bytes "\x7b\x7d" then some (.object []) else none

/-- `POST /api/backendQueryCoins` with the body of an empty object. -/
def queryCoins : Request where
  method := .hmPost
  path := [bytes "api", bytes "backendQueryCoins"]
  fragments := []
  last := bytes "\x7b\x7d"
  components := [.method .hmPost, .uriPathElement (bytes "api"),
    .uriPathElement (bytes "backendQueryCoins"), .dataLast (bytes "\x7b\x7d")]
  shape := by decide

/-- The same request twice: the second is answered `invalid_json`. -/
theorem second_request_differs : ¬ ∀ (parse : List UInt8 → Option Value) (rs : List Request)
    (k : Nat) (r : Request), rs[k]? = some r →
      (serveAll parse {} rs)[k]? = some (deliver parse {} r.components).2 := by
  intro h
  have hsecond := h parseEmptyObject [queryCoins, queryCoins] 1 queryCoins rfl
  have hserved : (serveAll parseEmptyObject {} [queryCoins, queryCoins])[1]? =
      some [.replyWithStatus "invalid_json"] := rfl
  have hfresh : (deliver parseEmptyObject {} queryCoins.components).2 =
      [.invoke .fnBackendQueryCoins (.object [])] := rfl
  rw [hserved, hfresh] at hsecond
  cases hsecond

/-- Two requests without bodies are isolated. -/
theorem isolated_two_empty :
    (serveAll parseEmptyObject {} [{ queryCoins with
        last := [],
        components := [.method .hmPost, .uriPathElement (bytes "api"),
          .uriPathElement (bytes "backendQueryCoins"), .dataLast []],
        shape := by decide }, queryCoins])[1]? =
      some (deliver parseEmptyObject {} queryCoins.components).2 :=
  isolated_while_no_body parseEmptyObject _ 1 queryCoins rfl
    (Or.inl (by
      intro earlier he
      exact Or.inr (by rw [List.mem_singleton.mp he]; rfl)))

end RequestIsolation
