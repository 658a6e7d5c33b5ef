import Mathlib.Logic.Hydra
import Mathlib.Logic.Relation

/-!
# Programs that call back

A program writes messages on one connection, counts references to it, and asks
other objects for answers. An answer is either awaited in place or delivered to
a callback, at once or at any later time. The interface is arbitrary; nothing
here depends on what is asked.
-/
namespace CallbackProgram

/-- The calls a program may make, the type of each answer, and its messages. -/
structure Interface where
  Call : Type
  Answer : Call → Type
  Message : Type

/-- `abort` is a violated precondition of the language or of a library. -/
inductive Program (I : Interface) where
  | done : Program I
  | abort : Program I
  | write : I.Message → Program I → Program I
  | acquire : Program I → Program I
  | release : Program I → Program I
  | ask : (c : I.Call) → (I.Answer c → Program I) → Program I
  | issue : (c : I.Call) → (I.Answer c → Program I) → Program I → Program I

/-- Statements in continuation form: what follows is an argument. -/
def Handler (I : Interface) (α : Type) := (α → Program I) → Program I

namespace Handler

variable {I : Interface} {α β : Type}

instance : Monad (Handler I) where
  pure a := fun k => k a
  bind m f := fun k => m (fun a => f a k)

/-- The program of a handler whose last statement has been reached. -/
def program (h : Handler I Unit) : Program I := h (fun _ => .done)

def write (m : I.Message) : Handler I Unit := fun k => .write m (k ())

def acquire : Handler I Unit := fun k => .acquire (k ())

def release : Handler I Unit := fun k => .release (k ())

def ask (c : I.Call) : Handler I (I.Answer c) := fun k => .ask c k

/-- The callback is a program of its own; the caller goes on after the call. -/
def issue (c : I.Call) (callback : I.Answer c → Handler I Unit) : Handler I Unit :=
  fun k => .issue c (fun a => (callback a).program) (k ())

/-- Read the value of a partial operation; a missing value is a violated precondition. -/
def require (x : Option α) : Handler I α := fun k =>
  match x with
  | some a => k a
  | none => .abort

@[simp] theorem pure_apply (a : α) (k : α → Program I) : (pure a : Handler I α) k = k a := rfl
@[simp] theorem bind_apply (m : Handler I α) (f : α → Handler I β) (k : β → Program I) :
    (m >>= f) k = m (fun a => f a k) := rfl
@[simp] theorem write_apply (m : I.Message) (k : Unit → Program I) :
    write m k = .write m (k ()) := rfl
@[simp] theorem acquire_apply (k : Unit → Program I) : acquire k = .acquire (k ()) := rfl
@[simp] theorem release_apply (k : Unit → Program I) : release k = .release (k ()) := rfl
@[simp] theorem ask_apply (c : I.Call) (k : I.Answer c → Program I) : ask c k = .ask c k := rfl
@[simp] theorem issue_apply (c : I.Call) (callback : I.Answer c → Handler I Unit)
    (k : Unit → Program I) :
    issue c callback k = .issue c (fun a => (callback a).program) (k ()) := rfl
@[simp] theorem require_some (a : α) (k : α → Program I) : require (some a) k = k a := rfl
@[simp] theorem require_none (k : α → Program I) :
    (require none : Handler I α) k = .abort := rfl

/-- A partial operation whose precondition holds is its value. -/
theorem require_bind (a : α) (f : α → Handler I β) : require (some a) >>= f = f a := rfl

/-- A branch of a handler is a branch of its program. -/
@[simp] theorem ite_apply (c : Prop) [Decidable c] (x y : Handler I α) (k : α → Program I) :
    (if c then x else y) k = if c then x k else y k := by split <;> rfl

end Handler

end CallbackProgram
