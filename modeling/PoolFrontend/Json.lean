import Mathlib.Algebra.Group.Nat.Defs
import Mathlib.Algebra.Ring.Int.Defs
import Mathlib.Data.List.Forall2
import Mathlib.Data.List.TakeWhile
import Mathlib.Data.Rat.Defs
import PoolFrontend.PartialState

/-!
# JSON documents and the preconditions of their accessors

A document is a tree; members keep their order and may repeat. An accessor with
an asserted precondition is a partial function, so a violated assertion is
`none`. The second half is the common way of reading fields: every read goes on
after a failure, and one validity flag remembers that something failed.
-/
namespace Json

open PartialState

/-- A double as its value. -/
inductive Double where
  | finite : ℚ → Double
  | infinite : (negative : Bool) → Double
  | nan : Double
  deriving DecidableEq, Repr

/-- Rounded to 53 bits, to the nearest and of two that are equally near to the even one. -/
def round53 (n : Nat) : Nat :=
  if n ≤ 2 ^ 53 then n
  else
    let unit := 2 ^ (n.log2 - 52)
    let q := n / unit
    let r := n % unit
    if 2 * r < unit ∨ 2 * r = unit ∧ q % 2 = 0 then q * unit else (q + 1) * unit

/-- Conversion of an integer to a double. -/
def Double.ofInt : Int → Double
  | .ofNat n => .finite (round53 n)
  | .negSucc n => .finite (-(round53 (n + 1) : ℚ))

theorem round53_exact {n : Nat} (h : n ≤ 2 ^ 53) : round53 n = n := if_pos h

/-- Up to 53 bits the conversion loses nothing. -/
theorem Double.ofInt_exact {i : Int} (h : i.natAbs ≤ 2 ^ 53) : Double.ofInt i = .finite i := by
  cases i with
  | ofNat n =>
    have hn : n ≤ 2 ^ 53 := h
    rw [Double.ofInt, round53_exact hn]
    rfl
  | negSucc n =>
    have hn : n + 1 ≤ 2 ^ 53 := h
    rw [Double.ofInt, round53_exact hn, Int.negSucc_eq]
    push_cast
    rfl

example : Double.ofInt 9007199254740993 = .finite 9007199254740992 := by decide

/-- Integers and doubles are kept apart, as the tests of the accessors do. -/
inductive Value where
  | null : Value
  | bool : Bool → Value
  | int : Int → Value
  | double : Double → Value
  | string : String → Value
  | array : List Value → Value
  | object : List (String × Value) → Value
  deriving Repr

abbrev Members := List (String × Value)

/-- A C string ends at the first NUL. -/
def cString (s : String) : String := String.ofList (s.toList.takeWhile (· ≠ '\x00'))

def NulFree (s : String) : Prop := '\x00' ∉ s.toList

instance (s : String) : Decidable (NulFree s) := inferInstanceAs (Decidable (_ ∉ _))

theorem cString_nulFree {s : String} (h : NulFree s) : cString s = s := by
  have hall : s.toList.takeWhile (· ≠ '\x00') = s.toList := by
    rw [List.takeWhile_eq_self_iff]
    intro c hc
    have hne : c ≠ '\x00' := fun he => h (he ▸ hc)
    simpa using hne
  rw [cString, hall, String.ofList_toList]

/-- A text whose C string is all of it. -/
theorem cString_eq_iff (s : String) : cString s = s ↔ NulFree s := by
  constructor
  · intro h hmem
    rw [← h, cString, String.toList_ofList] at hmem
    have hne := List.mem_takeWhile_imp hmem
    simp at hne
  · exact cString_nulFree

namespace Value

def isBool : Value → Bool
  | .bool _ => true
  | _ => false

def isString : Value → Bool
  | .string _ => true
  | _ => false

def isArray : Value → Bool
  | .array _ => true
  | _ => false

def isObject : Value → Bool
  | .object _ => true
  | _ => false

def isNumber : Value → Bool
  | .int _ => true
  | .double _ => true
  | _ => false

def isInt64 : Value → Bool
  | .int i => -2 ^ 63 ≤ i && i < 2 ^ 63
  | _ => false

def isUint64 : Value → Bool
  | .int i => 0 ≤ i && i < 2 ^ 64
  | _ => false

def isUint : Value → Bool
  | .int i => 0 ≤ i && i < 2 ^ 32
  | _ => false

def isDouble : Value → Bool
  | .double _ => true
  | _ => false

/-- A double inside the range of a single-precision number. -/
def isFloat : Value → Bool
  | .double (.finite q) =>
    -340282339999999992395853996843190976512 ≤ q && q ≤ 340282339999999992395853996843190976512
  | _ => false

/-- Asserts an object. -/
def hasMember : Value → String → Option Bool
  | .object ms, name => some (ms.lookup name).isSome
  | _, _ => none

/-- The first member of that name; asserts an object that has one. -/
def member : Value → String → Option Value
  | .object ms, name => ms.lookup name
  | _, _ => none

/-- `HasMember(name) && value[name].Is…()` -/
def memberIs (is : Value → Bool) (value : Value) (name : String) : Option Bool := do
  if ← value.hasMember name then
    return is (← value.member name)
  return false

def getBool : Value → Option Bool
  | .bool b => some b
  | _ => none

def getString : Value → Option String
  | .string s => some s
  | _ => none

def getArray : Value → Option (List Value)
  | .array xs => some xs
  | _ => none

def getInt64 : Value → Option Int
  | .int i => if -2 ^ 63 ≤ i && i < 2 ^ 63 then some i else none
  | _ => none

def getUint64 : Value → Option UInt64
  | .int i => if 0 ≤ i && i < 2 ^ 64 then some (UInt64.ofNat i.toNat) else none
  | _ => none

def getUint : Value → Option UInt32
  | .int i => if 0 ≤ i && i < 2 ^ 32 then some (UInt32.ofNat i.toNat) else none
  | _ => none

/-- An integer is converted, and rounded where it has more bits than a double. -/
def getDouble : Value → Option Double
  | .int i => some (.ofInt i)
  | .double d => some d
  | _ => none

@[simp] theorem hasMember_object (ms : Members) (name : String) :
    hasMember (.object ms) name = some (ms.lookup name).isSome := rfl
@[simp] theorem member_object (ms : Members) (name : String) :
    member (.object ms) name = ms.lookup name := rfl
@[simp] theorem memberIs_object (is : Value → Bool) (ms : Members) (name : String) :
    memberIs is (.object ms) name = some ((ms.lookup name).any is) := by
  cases h : ms.lookup name <;> simp [memberIs, h]

end Value

/-- The test and the getter of one type of value; the test admits exactly what
the getter accepts. -/
structure Getter (α : Type) where
  is : Value → Bool
  get : Value → Option α
  admits : ∀ v, is v = (get v).isSome

theorem guarded_isSome {α : Type} (b : Bool) (x : α) :
    (if b then some x else none).isSome = b := by
  cases b <;> rfl

namespace Getter

/-- Assignment of `GetString()`, a C string, to a string. -/
def string : Getter String where
  is := Value.isString
  get v := v.getString.map cString
  admits v := by cases v <;> rfl

def int64 : Getter Int where
  is := Value.isInt64
  get := Value.getInt64
  admits v := by
    cases v with
    | int i => exact (guarded_isSome _ _).symm
    | _ => rfl

def uint64 : Getter UInt64 where
  is := Value.isUint64
  get := Value.getUint64
  admits v := by
    cases v with
    | int i => exact (guarded_isSome _ _).symm
    | _ => rfl

def uint : Getter UInt32 where
  is := Value.isUint
  get := Value.getUint
  admits v := by
    cases v with
    | int i => exact (guarded_isSome _ _).symm
    | _ => rfl

def bool : Getter Bool where
  is := Value.isBool
  get := Value.getBool
  admits v := by cases v <;> rfl

def number : Getter Double where
  is := Value.isNumber
  get := Value.getDouble
  admits v := by cases v <;> rfl

def array : Getter (List Value) where
  is := Value.isArray
  get := Value.getArray
  admits v := by cases v <;> rfl

/-- The same values, wrapped: the content of a variable that may be unset. -/
def wrap {α β : Type} (g : Getter α) (f : α → β) : Getter β where
  is := g.is
  get v := (g.get v).map f
  admits v := by rw [g.admits, Option.isSome_map]

end Getter

/-- A required member of a type. -/
def required {α : Type} (g : Getter α) (ms : Members) (name : String) : Option α :=
  (ms.lookup name).bind g.get

theorem required_array_iff (ms : Members) (name : String) (values : List Value) :
    required Getter.array ms name = some values ↔ ms.lookup name = some (.array values) := by
  constructor
  · intro h
    obtain ⟨value, hlookup, hget⟩ := Option.bind_eq_some_iff.mp h
    cases value with
    | array values =>
      cases hget
      exact hlookup
    | _ => cases hget
  · intro h
    rw [required, h]
    rfl

/-- A member that may be absent, but not of another type. -/
def optional {α : Type} (g : Getter α) (ms : Members) (name : String) (default : α) : Option α :=
  match ms.lookup name with
  | some v => g.get v
  | none => some default

/-- A read may abort on a violated precondition; the state is the validity flag. -/
abbrev Parse := StateT Bool Option

/-- `*validAcc = false` -/
def invalidate : Parse Unit := set false

/-- Whatever the flag was, `p` does not abort, clears the flag exactly when `f`
fails, and otherwise yields the value of `f`. -/
def Reads {α : Type} (p : Parse α) (f : Option α) : Prop :=
  ∃ x, (∀ valid, p valid = some (x, valid && f.isSome)) ∧ ∀ y, f = some y → x = y

theorem reads_pure {α : Type} (x : α) : Reads (pure x) (some x) :=
  ⟨x, fun valid => by simp, fun _ h => Option.some.inj h⟩

theorem reads_bind {α β : Type} {p : Parse α} {f : Option α} {q : α → Parse β}
    {g : α → Option β} (hp : Reads p f) (hq : ∀ x, Reads (q x) (g x)) :
    Reads (p >>= q) (f.bind g) := by
  obtain ⟨x, hx, hf⟩ := hp
  obtain ⟨y, hy, hg⟩ := hq x
  refine ⟨y, fun valid => ?_, fun z hz => ?_⟩
  · have hrun : (p >>= q) valid = q x (valid && f.isSome) := by
      exact bind_run (hx valid)
    rw [hrun, hy]
    cases f with
    | none => simp
    | some a =>
      rw [hf a rfl]
      simp
  · cases f with
    | none => simp at hz
    | some a =>
      have := hf a rfl
      subst this
      exact hg z (by simpa using hz)

theorem reads_congr {α : Type} {p : Parse α} {f g : Option α} (h : Reads p f) (e : f = g) :
    Reads p g := e ▸ h

/-- A valid run ends valid with exactly the value of `f`. -/
theorem reads_accepts {α : Type} {p : Parse α} {f : Option α} (h : Reads p f) (x : α) :
    p true = some (x, true) ↔ f = some x := by
  obtain ⟨y, hrun, hval⟩ := h
  rw [hrun true]
  cases f with
  | none => simp
  | some z =>
    have hz := hval z rfl
    simp [hz]

theorem reads_invalidate {α : Type} (x : α) : Reads (do invalidate; return x) none :=
  ⟨x, fun valid => by simp [invalidate], fun _ h => by simp at h⟩

section Fields

variable {α : Type} (g : Getter α)

/-- The required form: absent and ill-typed are both invalid, and `out` is kept. -/
def parseRequired (document : Value) (name : String) (out : α) : Parse α := do
  if ← document.hasMember name then
    let value ← document.member name
    if g.is value then
      return ← g.get value
  invalidate
  return out

/-- The form with a default: only ill-typed is invalid. -/
def parseOptional (document : Value) (name : String) (out default : α) : Parse α := do
  if ← document.hasMember name then
    let value ← document.member name
    if g.is value then
      return ← g.get value
    invalidate
    return out
  return default

theorem parseRequired_object (ms : Members) (name : String) (out : α) (valid : Bool) :
    parseRequired g (.object ms) name out valid =
      some ((required g ms name).getD out, valid && (required g ms name).isSome) := by
  cases hv : ms.lookup name with
  | none => simp [parseRequired, required, hv, invalidate]
  | some v =>
    have hg := g.admits v
    cases hx : g.get v <;> rw [hx] at hg <;>
      simp [parseRequired, required, hv, hx, hg, invalidate]

theorem parseOptional_object (ms : Members) (name : String) (out default : α) (valid : Bool) :
    parseOptional g (.object ms) name out default valid =
      some ((optional g ms name default).getD out,
        valid && (optional g ms name default).isSome) := by
  cases hv : ms.lookup name with
  | none => simp [parseOptional, optional, hv]
  | some v =>
    have hg := g.admits v
    cases hx : g.get v <;> rw [hx] at hg <;>
      simp [parseOptional, optional, hv, hx, hg, invalidate]

theorem reads_required (ms : Members) (name : String) (out : α) :
    Reads (parseRequired g (.object ms) name out) (required g ms name) :=
  ⟨_, parseRequired_object g ms name out, fun y h => by simp [h]⟩

theorem reads_optional (ms : Members) (name : String) (out default : α) :
    Reads (parseOptional g (.object ms) name out default) (optional g ms name default) :=
  ⟨_, parseOptional_object g ms name out default, fun y h => by simp [h]⟩

end Fields

section Objects

variable {α : Type}

/-- The value of an object read from its members; nothing else has a value. -/
def ofObject (f : Members → Option α) : Value → Option α
  | .object ms => f ms
  | _ => none

/-- A list is read element by element. -/
theorem mapM_iff {α β : Type} {read : α → Option β} {R : α → β → Prop}
    (h : ∀ x y, read x = some y ↔ R x y) (xs : List α) (ys : List β) :
    xs.mapM read = some ys ↔ List.Forall₂ R xs ys := by
  induction xs generalizing ys with
  | nil =>
    rw [List.mapM_nil, List.forall₂_nil_left_iff]
    exact ⟨fun heq => (Option.some.inj heq).symm, fun heq => congrArg some heq.symm⟩
  | cons x xs ih =>
    rw [List.mapM_cons]
    constructor
    · intro hread
      obtain ⟨y, hy, hread⟩ := Option.bind_eq_some_iff.mp hread
      obtain ⟨rest, hrest, hread⟩ := Option.bind_eq_some_iff.mp hread
      cases hread
      exact .cons ((h x y).mp hy) ((ih rest).mp hrest)
    · intro hall
      cases hall with
      | cons hhead htail =>
        rw [(h x _).mpr hhead, (ih _).mpr htail]
        rfl

/-- Read each element as an object, in order; stop at the first that is none. -/
def parseObjects (item : Value → Parse α) : List Value → List α → Parse (List α)
  | [], out => return out
  | value :: rest, out => do
    if !value.isObject then
      invalidate
      return out
    let x ← item value
    parseObjects item rest (out ++ [x])

/-- The loop accepts a list exactly when every element is accepted, and then keeps
each of them in its place. -/
theorem reads_objects {item : Value → Parse α} {f : Members → Option α}
    (h : ∀ ms, Reads (item (.object ms)) (f ms)) (values : List Value) (out : List α) :
    Reads (parseObjects item values out) ((values.mapM (ofObject f)).map (out ++ ·)) := by
  induction values generalizing out with
  | nil => simpa [parseObjects] using reads_pure out
  | cons value rest ih =>
    cases value with
    | object ms =>
      refine reads_congr (reads_bind (h ms) (fun x => ih (out ++ [x]))) ?_
      cases hx : f ms <;> cases hr : rest.mapM (ofObject f) <;> simp [ofObject, hx, hr]
    | _ => exact reads_congr (reads_invalidate out) (by simp [ofObject])

end Objects

end Json
