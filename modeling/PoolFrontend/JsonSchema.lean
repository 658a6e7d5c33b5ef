import Mathlib.Data.List.Forall2
import PoolFrontend.Json

/-!
# Schemas

The shape of a JSON value, in the words of a document that describes an interface. An object
has the members of its schema and no others, in their order.
-/
namespace JsonSchema

open Json

/-- A `double` may be infinite or not a number; JSON has a text for the `finite` ones only. -/
inductive Kind where
  | null | bool | int | double | finite | string
  deriving DecidableEq, Repr

/-- A literal is one text; `either` is for a member whose type varies. -/
inductive Schema where
  | kind : Kind → Schema
  | literal : String → Schema
  | array : Schema → Schema
  | object : List (String × Schema) → Schema
  | either : Schema → Schema → Schema

/-- The members of an object, in their order. -/
abbrev Fields := List (String × Schema)

namespace Schema

abbrev null : Schema := .kind .null
abbrev bool : Schema := .kind .bool
abbrev int : Schema := .kind .int
abbrev double : Schema := .kind .double
abbrev finite : Schema := .kind .finite
abbrev string : Schema := .kind .string

end Schema

/-- An integer is no `double` here: the writer has a call for each. -/
def Kind.accepts : Kind → Value → Bool
  | .null, .null => true
  | .bool, .bool _ => true
  | .int, .int _ => true
  | .double, .double _ => true
  | .finite, .double (.finite _) => true
  | .string, .string _ => true
  | _, _ => false

mutual

/-- The value has this shape and no other. -/
def Schema.accepts : Schema → Value → Bool
  | .kind kind, value => kind.accepts value
  | .literal text, value =>
    match value with
    | .string s => s = text
    | _ => false
  | .array item, value =>
    match value with
    | .array values => values.all fun value => item.accepts value
    | _ => false
  | .object fields, value =>
    match value with
    | .object ms => acceptsMembers fields ms
    | _ => false
  | .either a b, value => a.accepts value || b.accepts value

/-- The members have these names and shapes, one after the other. -/
def acceptsMembers : List (String × Schema) → Members → Bool
  | [], ms => ms.isEmpty
  | (name, schema) :: fields, ms =>
    match ms with
    | (other, value) :: ms => other = name && schema.accepts value && acceptsMembers fields ms
    | [] => false

end

/-- The schema of a text. -/
def Schema.isText : Schema → Bool
  | .kind .string => true
  | .literal _ => true
  | _ => false

section Rules

variable {schema a b : Schema} {fields : Fields} {ms : Members} {name other : String}
  {value : Value}

@[simp] theorem accepts_null : Schema.null.accepts .null = true := rfl
@[simp] theorem accepts_bool (x : Bool) : Schema.bool.accepts (.bool x) = true := rfl
@[simp] theorem accepts_int (n : Int) : Schema.int.accepts (.int n) = true := rfl
@[simp] theorem accepts_double (x : Double) : Schema.double.accepts (.double x) = true :=
  rfl
@[simp] theorem accepts_finite (q : ℚ) :
    Schema.finite.accepts (.double (.finite q)) = true := rfl
@[simp] theorem accepts_string (s : String) : Schema.string.accepts (.string s) = true :=
  rfl
@[simp] theorem accepts_literal (s text : String) :
    (Schema.literal text).accepts (.string s) = decide (s = text) := by
  simp [Schema.accepts]

@[simp] theorem accepts_array (values : List Value) :
    (Schema.array schema).accepts (.array values) = values.all schema.accepts := by
  simp [Schema.accepts]

@[simp] theorem accepts_object :
    (Schema.object fields).accepts (.object ms) = acceptsMembers fields ms := by
  simp [Schema.accepts]

@[simp] theorem accepts_either :
    (Schema.either a b).accepts value = (a.accepts value || b.accepts value) := by
  simp [Schema.accepts]

@[simp] theorem acceptsMembers_nil : acceptsMembers [] [] = true := rfl

@[simp] theorem acceptsMembers_cons :
    acceptsMembers ((name, schema) :: fields) ((other, value) :: ms) =
      (decide (other = name) && schema.accepts value && acceptsMembers fields ms) := by
  simp [acceptsMembers]

/-- The schema of a text accepts nothing else. -/
theorem accepts_text (htext : schema.isText = true) (h : schema.accepts value = true) :
    ∃ s, value = .string s := by
  unfold Schema.isText at htext
  split at htext
  · cases value with
    | string s => exact ⟨s, rfl⟩
    | _ => cases h
  · cases value with
    | string s => exact ⟨s, rfl⟩
    | _ => simp [Schema.accepts] at h
  · cases htext

/-- Field by field. -/
theorem acceptsMembers_iff : acceptsMembers fields ms = true ↔
    List.Forall₂ (fun field member => member.1 = field.1 ∧ field.2.accepts member.2 = true)
      fields ms := by
  induction fields generalizing ms with
  | nil => cases ms <;> simp [acceptsMembers]
  | cons field fields ih => cases ms <;> simp [acceptsMembers, ih]

/-- A client that keeps the last member of a name looks from the other end. -/
theorem acceptsMembers_reverse (h : acceptsMembers fields ms = true) :
    acceptsMembers fields.reverse ms.reverse = true :=
  acceptsMembers_iff.mpr (List.forall₂_reverse_iff.mpr (acceptsMembers_iff.mp h))

/-- A member of the schema is a member of the object, and of its type. -/
theorem acceptsMembers_lookup (h : acceptsMembers fields ms = true)
    (hfield : fields.lookup name = some schema) :
    ∃ value, ms.lookup name = some value ∧ schema.accepts value = true := by
  induction fields generalizing ms with
  | nil => cases hfield
  | cons field fields ih =>
    obtain ⟨first, firstSchema⟩ := field
    cases ms with
    | nil => simp [acceptsMembers] at h
    | cons member ms =>
      obtain ⟨other, value⟩ := member
      rw [acceptsMembers_cons, Bool.and_eq_true, Bool.and_eq_true, decide_eq_true_eq] at h
      obtain ⟨⟨rfl, hvalue⟩, hrest⟩ := h
      rw [List.lookup_cons] at hfield ⊢
      cases hname : name == other with
      | true =>
        rw [hname] at hfield
        cases hfield
        exact ⟨value, rfl, hvalue⟩
      | false =>
        rw [hname] at hfield
        exact ih hrest hfield

end Rules

end JsonSchema
