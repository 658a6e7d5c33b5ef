import Mathlib.Control.Monad.Writer
import Mathlib.Data.List.Infix

/-!
# Computations that record their calls

A computation may be undefined or fail, and what it has called by then stays called. Without its
calls it is a plain computation. It makes a list of calls if it has made them all where it
completes, and fewer of them, from the first on, where it fails.
-/
namespace RecordedCalls

variable {ω ε α β : Type}

/-- What has been called before comes first. -/
def behind (made : List ω) (out : α × List ω) : α × List ω := (out.1, made ++ out.2)

theorem behind_append (made more : List ω) :
    behind (made ++ more) = (behind made ∘ behind more : α × List ω → α × List ω) := by
  funext out
  simp [behind]

theorem bind_twice {γ : Type} (p : WriterT (List ω) Option α) (q : α → WriterT (List ω) Option β)
    (r : β → WriterT (List ω) Option γ) : p >>= q >>= r = p >>= fun x => q x >>= r := by
  cases p with
  | none => rfl
  | some out =>
    obtain ⟨x, made⟩ := out
    change ((q x).run.map (behind made)).bind (fun out => (r out.1).run.map (behind out.2)) =
      ((q x).run.bind fun out => (r out.1).run.map (behind out.2)).map (behind made)
    rw [Option.bind_map, Option.map_bind]
    congr 1
    funext out
    rw [Function.comp_apply, Function.comp_apply, Option.map_map, ← behind_append]
    rfl

theorem bind_return (f : α → β) (p : WriterT (List ω) Option α) :
    (p >>= fun x => pure (f x)) = f <$> p := by
  cases p with
  | none => rfl
  | some out => exact congrArg some (Prod.ext rfl (List.append_nil _))

instance lawfulRecords : LawfulMonad (WriterT (List ω) Option) :=
  LawfulMonad.mk' _ (fun p => by cases p <;> rfl) (fun _ _ => Option.map_id_apply) bind_twice
    (fun _ _ => rfl) (fun _ _ => rfl) (fun _ _ => rfl) bind_return fun _ _ => rfl

abbrev Recorded (ω ε : Type) := ExceptT ε (WriterT (List ω) Option)

def call (c : ω) : Recorded ω ε Unit := ExceptT.lift (WriterT.mk (some ((), [c])))

/-- A plain computation makes no call. -/
def silently (p : ExceptT ε Option α) : Recorded ω ε α :=
  ExceptT.mk (WriterT.mk (p.run.map fun result => (result, [])))

/-- What is left without the calls. -/
def erase (p : Recorded ω ε α) : ExceptT ε Option α := ExceptT.mk (p.run.run.map Prod.fst)

section Erase

@[simp] theorem erase_pure (x : α) : erase (pure x : Recorded ω ε α) = pure x := rfl

@[simp] theorem erase_throw (e : ε) : erase (throw e : Recorded ω ε α) = throw e := rfl

@[simp] theorem erase_call (c : ω) : erase (call c : Recorded ω ε Unit) = pure () := rfl

@[simp] theorem erase_silently (p : ExceptT ε Option α) :
    erase (silently p : Recorded ω ε α) = p := by
  cases p <;> rfl

@[simp] theorem erase_bind (p : Recorded ω ε α) (q : α → Recorded ω ε β) :
    erase (p >>= q) = erase p >>= fun x => erase (q x) := by
  cases p with
  | none => rfl
  | some outcome =>
    obtain ⟨result, made⟩ := outcome
    cases result with
    | error e => rfl
    | ok x =>
      change ((q x).run.run.map (behind made)).map Prod.fst = (q x).run.run.map Prod.fst
      rw [Option.map_map]
      rfl

@[simp] theorem erase_map (f : α → β) (p : Recorded ω ε α) : erase (f <$> p) = f <$> erase p := by
  rw [← bind_pure_comp, erase_bind, ← bind_pure_comp]
  rfl

@[simp] theorem erase_ite {c : Prop} [Decidable c] (p q : Recorded ω ε α) :
    erase (if c then p else q) = if c then erase p else erase q := by
  split <;> rfl

@[simp] theorem erase_mapM (f : α → Recorded ω ε β) (xs : List α) :
    erase (xs.mapM f) = xs.mapM fun x => erase (f x) := by
  induction xs with
  | nil => rfl
  | cons x xs ih => simp only [List.mapM_cons, erase_bind, erase_pure, ih]

end Erase

/-- The computation completes or fails, and has made these calls by then. -/
def Ends (p : Recorded ω ε α) (result : Except ε α) (made : List ω) : Prop :=
  p.run.run = some (result, made)

theorem ends_bind {p : Recorded ω ε α} {q : α → Recorded ω ε β} {result : Except ε β}
    {made : List ω} (h : Ends (p >>= q) result made) :
    (∃ e, Ends p (.error e) made ∧ result = .error e) ∨
      ∃ x before after, Ends p (.ok x) before ∧ Ends (q x) result after ∧
        made = before ++ after := by
  cases p with
  | none => cases h
  | some outcome =>
    obtain ⟨first, before⟩ := outcome
    cases first with
    | error e =>
      have hsame : (Except.error e, before ++ []) = (result, made) := Option.some.inj h
      rw [List.append_nil] at hsame
      cases hsame
      exact .inl ⟨e, rfl, rfl⟩
    | ok x =>
      have hrest : (q x).run.run.map (behind before) = some (result, made) := h
      obtain ⟨⟨last, after⟩, hlast, hbehind⟩ := Option.map_eq_some_iff.mp hrest
      cases hbehind
      exact .inr ⟨x, before, after, rfl, hlast, rfl⟩

theorem ends_silently {p : ExceptT ε Option α} {result : Except ε α} {made : List ω}
    (h : Ends (silently p) result made) : p = ExceptT.mk (some result) ∧ made = [] := by
  obtain ⟨result', hp, hpair⟩ := Option.map_eq_some_iff.mp h
  cases hpair
  exact ⟨hp, rfl⟩

/-- The result is the one of the plain computation. -/
theorem ends_erase {p : Recorded ω ε α} {result : Except ε α} {made : List ω}
    (h : Ends p result made) : erase p = ExceptT.mk (some result) := by
  have hrun : p.run.run = some (result, made) := h
  rw [erase, hrun, Option.map_some]

/-- What completes has this result and has made all of the calls; what fails has not come to the
last of them. -/
structure Makes (p : Recorded ω ε α) (x : α) (calls : List ω) : Prop where
  ok : ∀ y made, Ends p (.ok y) made → y = x ∧ made = calls
  error : ∀ e made, Ends p (.error e) made → ∃ c, made ++ [c] <+: calls

section Rules

variable {p : Recorded ω ε α} {q : α → Recorded ω ε β} {x : α} {y : β} {calls later : List ω}

theorem makes_pure (x : α) : Makes (pure x : Recorded ω ε α) x [] := by
  constructor
  · intro y made h
    cases h
    exact ⟨rfl, rfl⟩
  · intro e made h
    cases h

theorem makes_call (c : ω) : Makes (call c : Recorded ω ε Unit) () [c] := by
  constructor
  · intro y made h
    cases h
    exact ⟨rfl, rfl⟩
  · intro e made h
    cases h

theorem makes_bind (hp : Makes p x calls) (hq : Makes (q x) y later) :
    Makes (p >>= q) y (calls ++ later) := by
  constructor
  · intro z made h
    obtain ⟨e, -, hresult⟩ | ⟨x', before, after, hfirst, hrest, rfl⟩ := ends_bind h
    · cases hresult
    · obtain ⟨rfl, rfl⟩ := hp.ok _ _ hfirst
      obtain ⟨rfl, rfl⟩ := hq.ok _ _ hrest
      exact ⟨rfl, rfl⟩
  · intro e made h
    obtain ⟨e', hfirst, -⟩ | ⟨x', before, after, hfirst, hrest, rfl⟩ := ends_bind h
    · obtain ⟨c, hprefix⟩ := hp.error _ _ hfirst
      exact ⟨c, hprefix.trans (List.prefix_append _ _)⟩
    · obtain ⟨rfl, rfl⟩ := hp.ok _ _ hfirst
      obtain ⟨c, hprefix⟩ := hq.error _ _ hrest
      refine ⟨c, ?_⟩
      rw [List.append_assoc]
      exact (List.prefix_append_right_inj _).mpr hprefix

theorem makes_call_bind {c : ω} {q : Unit → Recorded ω ε β} (hq : Makes (q ()) y later) :
    Makes (call c >>= q) y (c :: later) :=
  makes_bind (makes_call c) hq

/-- What fails without a call is followed by one. -/
theorem makes_silently {p : ExceptT ε Option α} (hp : ∀ z, p = pure z → z = x)
    (hq : Makes (q x) y later) (hlater : later ≠ []) :
    Makes (silently p >>= q) y later := by
  constructor
  · intro z made h
    obtain ⟨e, -, hresult⟩ | ⟨x', before, after, hfirst, hrest, rfl⟩ := ends_bind h
    · cases hresult
    · obtain ⟨hpure, rfl⟩ := ends_silently hfirst
      obtain rfl := hp x' hpure
      exact hq.ok _ _ hrest
  · intro e made h
    obtain ⟨e', hfirst, -⟩ | ⟨x', before, after, hfirst, hrest, rfl⟩ := ends_bind h
    · obtain ⟨-, rfl⟩ := ends_silently hfirst
      obtain ⟨c, rest, rfl⟩ := List.exists_cons_of_ne_nil hlater
      exact ⟨c, rest, rfl⟩
    · obtain ⟨hpure, rfl⟩ := ends_silently hfirst
      obtain rfl := hp x' hpure
      exact hq.error _ _ hrest

/-- A check that fails before any call. -/
theorem makes_check {c : Prop} [Decidable c] {e : ε} {p : Recorded ω ε α}
    (hp : ¬ c → Makes p x calls) (hcalls : calls ≠ []) :
    Makes (if c then throw e else p) x calls := by
  split
  · constructor
    · intro y made h
      cases h
    · intro e' made h
      cases h
      obtain ⟨first, rest, rfl⟩ := List.exists_cons_of_ne_nil hcalls
      exact ⟨first, rest, rfl⟩
  · rename_i hnot
    exact hp hnot

theorem makes_mapM {f : α → Recorded ω ε β} {g : α → β} {w : α → List ω}
    (h : ∀ x, Makes (f x) (g x) (w x)) (xs : List α) :
    Makes (xs.mapM f) (xs.map g) (xs.flatMap w) := by
  induction xs with
  | nil => exact makes_pure []
  | cons x xs ih =>
    rw [List.mapM_cons, List.flatMap_cons, List.map_cons]
    have hrest := makes_bind (q := fun ys => pure (g x :: ys)) ih (makes_pure _)
    rw [List.append_nil] at hrest
    exact makes_bind (h x) hrest

/-- The list is made in full exactly by what completes. -/
theorem Makes.prefix_iff (hp : Makes p x calls) {result : Except ε α} {made : List ω}
    (h : Ends p result made) : made <+: calls ∧ (made = calls ↔ ∃ y, result = .ok y) := by
  cases result with
  | ok y =>
    obtain ⟨rfl, rfl⟩ := hp.ok _ _ h
    exact ⟨List.prefix_refl _, iff_of_true rfl ⟨y, rfl⟩⟩
  | error e =>
    obtain ⟨c, hprefix⟩ := hp.error _ _ h
    refine ⟨(List.prefix_append _ _).trans hprefix, iff_of_false ?_ ?_⟩
    · rintro rfl
      have hlength := hprefix.length_le
      rw [List.length_append, List.length_singleton] at hlength
      omega
    · rintro ⟨y, hy⟩
      cases hy

end Rules

end RecordedCalls
