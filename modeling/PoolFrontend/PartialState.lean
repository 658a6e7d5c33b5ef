/-!
# Partial computations on a state

A computation reads and writes a state and may have no outcome at all. These equations run one
on an initial state, so that a proof about a run unfolds the computation and nothing of the
monad.
-/
namespace PartialState

variable {σ α β : Type}

@[simp] theorem run_pure (x : α) (s : σ) : (pure x : StateT σ Option α) s = some (x, s) := rfl

@[simp] theorem run_bind (p : StateT σ Option α) (q : α → StateT σ Option β) (s : σ) :
    (p >>= q) s = (p s).bind fun result => q result.1 result.2 := rfl

@[simp] theorem run_map (f : α → β) (p : StateT σ Option α) (s : σ) :
    (f <$> p) s = (p s).bind fun result => some (f result.1, result.2) := rfl

@[simp] theorem run_get (s : σ) : (get : StateT σ Option σ) s = some (s, s) := rfl

@[simp] theorem run_set (s t : σ) : (set t : StateT σ Option PUnit) s = some (⟨⟩, t) := rfl

/-- A partial operation leaves the state as it is. -/
@[simp] theorem run_lift (o : Option α) (s : σ) :
    (liftM o : StateT σ Option α) s = o.map fun x => (x, s) := by
  cases o <;> rfl

/-- A partial operation whose precondition holds is its value. -/
theorem lift_some_bind (x : α) (q : α → StateT σ Option β) :
    (liftM (some x) : StateT σ Option α) >>= q = q x := rfl

theorem bind_run {p : StateT σ Option α} {q : α → StateT σ Option β} {s t : σ} {x : α}
    (h : p s = some (x, t)) : (p >>= q) s = q x t := by
  rw [run_bind, h, Option.bind_some]

theorem bind_aborts {p : StateT σ Option α} {q : α → StateT σ Option β} {s : σ}
    (h : p s = none) : (p >>= q) s = none := by
  rw [run_bind, h, Option.bind_none]

end PartialState
