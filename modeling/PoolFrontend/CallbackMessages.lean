import Mathlib.Data.List.Forall2
import PoolFrontend.CallbackActivation

/-!
# What a program writes

A property of messages holds of every message a program writes, and of those of the callbacks
it leaves, whatever it is answered. The rules follow the statements of a handler, each of which
may be followed by any program that keeps the property.
-/
namespace CallbackMessages

open CallbackProgram CallbackActivation

variable {I : Interface} {P : I.Message → Prop}

/-- Behind a violated precondition nothing is written. -/
def Writes (P : I.Message → Prop) : Program I → Prop
  | .done => True
  | .abort => True
  | .write m p => P m ∧ Writes P p
  | .acquire p => Writes P p
  | .release p => Writes P p
  | .ask _ k => ∀ x, Writes P (k x)
  | .issue _ f p => (∀ x, Writes P (f x)) ∧ Writes P p

/-- A callback writes messages of that property only. -/
def Promises (P : I.Message → Prop) (w : Callback I) : Prop := ∀ x, Writes P (w.onAnswer x)

theorem writes_imp {Q : I.Message → Prop} (himp : ∀ m, P m → Q m) {p : Program I}
    (h : Writes P p) : Writes Q p := by
  induction p with
  | done | abort => trivial
  | write m p ih => exact ⟨himp m h.1, ih h.2⟩
  | acquire p ih | release p ih => exact ih h
  | ask c k ih => exact fun x => ih x (h x)
  | issue c f p ihf ih => exact ⟨fun x => ihf x (h.1 x), ih h.2⟩

/-- What has been written, and what the callbacks will write. -/
theorem executes_writes {p : Program I} {ms : List I.Message} {ws : List (Callback I)}
    (he : Executes p ms ws) (h : Writes P p) : (∀ m ∈ ms, P m) ∧ ∀ w ∈ ws, Promises P w := by
  induction he with
  | done => simp
  | write m _ ih =>
    obtain ⟨hms, hws⟩ := ih h.2
    exact ⟨List.forall_mem_cons.mpr ⟨h.1, hms⟩, hws⟩
  | acquire _ ih | release _ ih => exact ih h
  | ask c x _ ih => exact ih (h x)
  | issue c f _ ih =>
    obtain ⟨hms, hws⟩ := ih h.2
    exact ⟨hms, List.forall_mem_cons.mpr ⟨h.1, hws⟩⟩

/-- The statements write messages of that property, as far as what follows them does. -/
def Sends {α : Type} (P : I.Message → Prop) (h : Handler I α) : Prop :=
  ∀ k, (∀ x, Writes P (k x)) → Writes P (h k)

section Rules

variable {α β : Type}

theorem sends_program {h : Handler I Unit} (hh : Sends P h) : Writes P h.program :=
  hh _ fun _ => trivial

theorem sends_pure (a : α) : Sends P (pure a : Handler I α) := fun _ hk => hk a

theorem sends_bind {h : Handler I α} {f : α → Handler I β} (hh : Sends P h)
    (hf : ∀ a, Sends P (f a)) : Sends P (h >>= f) := fun k hk => hh _ fun a => hf a k hk

theorem sends_write {m : I.Message} (hm : P m) : Sends P (Handler.write m) :=
  fun _ hk => ⟨hm, hk ()⟩

theorem sends_acquire : Sends P (Handler.acquire : Handler I Unit) := fun _ hk => hk ()

theorem sends_release : Sends P (Handler.release : Handler I Unit) := fun _ hk => hk ()

theorem sends_ask (c : I.Call) : Sends P (Handler.ask c) := fun _ hk => hk

theorem sends_issue (c : I.Call) {callback : I.Answer c → Handler I Unit}
    (h : ∀ x, Sends P (callback x)) : Sends P (Handler.issue c callback) :=
  fun _ hk => ⟨fun x => sends_program (h x), hk ()⟩

theorem sends_require (x : Option α) : Sends P (Handler.require x : Handler I α) := by
  intro k hk
  cases x with
  | none => trivial
  | some a => exact hk a

end Rules

section Order

variable {R : Type} {Says : R → I.Message → Prop} {requests later : List R}
  {ms ms' : List I.Message} {ws : List (Callback I)} {w : Callback I}

/-- The first requests have been answered, in their order, and the callbacks that still wait
will answer the others. -/
def Paired (Says : R → I.Message → Prop) (requests : List R) (ms : List I.Message)
    (ws : List (Callback I)) : Prop :=
  ∃ answered waiting, requests = answered ++ waiting ∧ List.Forall₂ Says answered ms ∧
    List.Forall₂ (fun r w => Promises (Says r) w) waiting ws

theorem paired_nil : Paired Says [] [] [] := ⟨[], [], rfl, .nil, .nil⟩

/-- A program that owes one message answers its request, or leaves a callback that will. -/
theorem executes_paired {r : R} {p : Program I} (hp : Answers p) (hw : Writes (Says r) p)
    (he : Executes p ms ws) : Paired Says [r] ms ws := by
  obtain ⟨hms, hws⟩ := executes_writes he hw
  rcases answers_executes hp he with ⟨m, rfl, rfl⟩ | ⟨rfl, w, rfl, -⟩
  · exact ⟨[r], [], rfl, .cons (hms m (by simp)) .nil, .nil⟩
  · exact ⟨[], [r], rfl, .nil, .cons (hws w (by simp)) .nil⟩

/-- The same for at most one program. -/
theorem executesAll_paired {program : R → Program I} (hone : requests.length ≤ 1)
    (hp : ∀ r ∈ requests, Answers (program r)) (hw : ∀ r, Writes (Says r) (program r))
    (he : ExecutesAll (requests.map program) ms ws) : Paired Says requests ms ws := by
  cases requests with
  | nil =>
    cases he
    exact paired_nil
  | cons r rest =>
    obtain rfl : rest = [] := List.eq_nil_of_length_eq_zero (by simpa using hone)
    exact executes_paired (hp r (by simp)) (hw r) (executesAll_singleton.mp he)

/-- Where nothing waits, later requests are answered after the earlier ones. -/
theorem paired_append (h : Paired Says requests ms []) (hlater : Paired Says later ms' ws) :
    Paired Says (requests ++ later) (ms ++ ms') ws := by
  obtain ⟨answered, waiting, rfl, hms, hnone⟩ := h
  obtain ⟨answered', waiting', rfl, hms', hws⟩ := hlater
  cases hnone
  exact ⟨answered ++ answered', waiting', by simp, List.rel_append hms hms', hws⟩

/-- The only callback that waits gets its answer. -/
theorem paired_answered (h : Paired Says requests ms [w]) {x : I.Answer w.call}
    (hw : Answers (w.onAnswer x)) (he : Executes (w.onAnswer x) ms' ws) :
    Paired Says requests (ms ++ ms') ws := by
  obtain ⟨answered, waiting, rfl, hms, hwaiting⟩ := h
  obtain ⟨r, hr⟩ : ∃ r, waiting = [r] := List.length_eq_one_iff.mp hwaiting.length_eq
  subst hr
  have hpromise : Promises (Says r) w := (List.forall₂_cons.mp hwaiting).1
  exact paired_append ⟨answered, [], by simp, hms, .nil⟩ (executes_paired hw (hpromise x) he)

end Order

end CallbackMessages
