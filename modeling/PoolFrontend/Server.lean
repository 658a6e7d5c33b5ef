import PoolFrontend.Config
import PoolFrontend.Poolcore

/-!
# The HTTP server and the statements of its handlers

What a handler reads of the server is fixed during a request: the coins, the
backends and statistic databases sorted by coin name, the configuration, and the
pure helpers of the core. Replies are kept as their status line and
their body; `ReplyFraming` gives their bytes.
-/
namespace Server

open CallbackProgram Json Poolcore
open Config (CPoolFrontendConfig)

/-- Helpers of the core that compute a value and touch no state. -/
structure Helpers where
  formatMoney : Int → Int → String
  parseMoneyValue : String → Int → Option Int
  checkAddress : CoinInfo → String → Nat → Bool
  getPowerUnitName : CoinInfo → String
  getRational : Int → Int → Int

structure StatisticDb where
  handle : Handle
  coinInfo : CoinInfo
  deriving DecidableEq, Repr

structure PoolBackend where
  handle : Handle
  coinInfo : CoinInfo
  minimalAllowedPayout : Int
  accountingDb : Handle
  statisticDb : StatisticDb
  deriving DecidableEq, Repr

/-- The coins of the user manager and their index by name. -/
structure UserManager where
  coinInfo : List CoinInfo
  coinIdxMap : String → Option (Fin coinInfo.length)

structure PoolHttpServer where
  helpers : Helpers
  userManager : UserManager
  backends : List PoolBackend
  statistics : List StatisticDb
  config : CPoolFrontendConfig

/-- A pool without coins, whose helpers format nothing and accept every address. -/
def emptyServer : PoolHttpServer where
  helpers := ⟨fun _ _ => "", fun _ _ => none, fun _ _ _ => true, fun _ => "", fun x _ => x⟩
  userManager := ⟨[], fun _ => none⟩
  backends := []
  statistics := []
  config := {}

/-- `std::lower_bound` on `count` elements from `first`; `fuel` bounds the halvings. -/
def lowerBoundFrom {α : Type} (below : α → Bool) (xs : List α) :
    (fuel first count : Nat) → Nat
  | 0, first, _ => first
  | fuel + 1, first, count =>
    if count = 0 then first
    else
      match xs[first + count / 2]? with
      | some x =>
        if below x then
          lowerBoundFrom below xs fuel (first + count / 2 + 1) (count - count / 2 - 1)
        else lowerBoundFrom below xs fuel first (count / 2)
      | none => first

def lowerBound {α : Type} (below : α → Bool) (xs : List α) : Nat :=
  lowerBoundFrom below xs xs.length 0 xs.length

/-- The search shared by `backend` and `statisticDb`. -/
def findByName {α : Type} (nameOf : α → String) (xs : List α) (name : String) : Option α :=
  match xs[lowerBound (fun x => nameOf x < name) xs]? with
  | some x => if nameOf x ≠ name then none else some x
  | none => none

namespace PoolHttpServer

def backend (server : PoolHttpServer) (coin : String) : Option PoolBackend :=
  findByName (fun b => b.coinInfo.name) server.backends coin

def statisticDb (server : PoolHttpServer) (name : String) : Option StatisticDb :=
  findByName (fun s => s.coinInfo.name) server.statistics name

end PoolHttpServer

theorem findByName_name {α : Type} {nameOf : α → String} {xs : List α} {name : String} {x : α}
    (h : findByName nameOf xs name = some x) : nameOf x = name ∧ x ∈ xs := by
  unfold findByName at h
  split at h
  · rename_i y hy
    split at h
    · cases h
    · rename_i hne
      cases h
      exact ⟨by simpa using hne, List.mem_of_getElem? hy⟩
  · cases h

/-- What a handler writes between `startChunk` and `finishChunk`. -/
inductive Body where
  | json : Value → Body
  | text : String → Body
  | raw : List UInt8 → Body

inductive Reply where
  | reply200 : Body → Reply
  | reply404 : Reply

abbrev Http : Interface where
  Call := Call
  Answer := Answer
  Message := Reply

abbrev Handler := CallbackProgram.Handler Http

/-- `aioWrite` of a finished stream. -/
abbrev aioWrite (reply : Reply) : Handler Unit := Handler.write reply

abbrev objectIncrementReference : Handler Unit := Handler.acquire

abbrev objectDecrementReference : Handler Unit := Handler.release

/-- A call answered in place. -/
abbrev ask (c : Call) : Handler (Answer c) := @Handler.ask Http c

/-- A call answered to a callback. -/
abbrev issue (c : Call) (callback : Answer c → Handler Unit) : Handler Unit :=
  @Handler.issue Http c callback

/-- A value whose absence violates a precondition. -/
abbrev require {α : Type} (x : Option α) : Handler α := CallbackProgram.Handler.require x

/-- The sequence `reply200`, `startChunk`, one JSON object, `finishChunk`, `aioWrite`. -/
def replyObject (members : Members) : Handler Unit :=
  aioWrite (.reply200 (.json (.object members)))

def statusReply (status : String) : Reply :=
  .reply200 (.json (.object [("status", .string status)]))

def replyWithStatus (status : String) : Handler Unit := aioWrite (statusReply status)

/-- The frame shared by the handlers: `validAcc` starts true, the fields are read,
and a cleared flag is answered with `json_format_error`. -/
def withFields {α : Type} (fields : Parse α) (body : α → Handler Unit) : Handler Unit := do
  let (values, validAcc) ← require (fields true)
  if !validAcc then
    replyWithStatus "json_format_error"
    return
  body values

@[simp] theorem replyObject_apply (members : Members) (k : Unit → Program Http) :
    replyObject members k = .write (.reply200 (.json (.object members))) (k ()) := rfl

@[simp] theorem replyWithStatus_apply (status : String) (k : Unit → Program Http) :
    replyWithStatus status k = .write (statusReply status) (k ()) := rfl

/-- Go on with the fields, or reject the request. -/
def accepted {α : Type} (fields : Option α) (body : α → Handler Unit) : Handler Unit :=
  match fields with
  | some values => body values
  | none => replyWithStatus "json_format_error"

theorem accepted_map {α β : Type} (fields : Option α) (lift : α → β) (body : β → Handler Unit) :
    accepted (fields.map lift) body = accepted fields fun values => body (lift values) := by
  cases fields <;> rfl

/-- A handler whose fields are read by `f` goes on with them, or rejects. -/
theorem withFields_reads {α : Type} {fields : Parse α} {f : Option α} (h : Reads fields f)
    (body : α → Handler Unit) : withFields fields body = accepted f body := by
  obtain ⟨x, hx, hf⟩ := h
  funext k
  cases f with
  | none => simp [withFields, accepted, require, hx]
  | some y => simp [withFields, accepted, require, hx, hf y rfl]

/-- The asynchronous end of a handler: a reference is held until the callback has
answered. -/
def answerLater (c : Call) (reply : Answer c → Handler Unit) : Handler Unit := do
  objectIncrementReference
  issue c fun answer => do
    reply answer
    objectDecrementReference

@[simp] theorem answerLater_apply (c : Call) (reply : Answer c → Handler Unit)
    (k : Unit → Program Http) :
    answerLater c reply k =
      .acquire (.issue c (fun x => reply x fun _ => .release .done) (k ())) := rfl

end Server
