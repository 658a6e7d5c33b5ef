import PoolFrontend.CallbackRuns

/-!
# Programs that run to their end

Between two events of a connection nothing else runs: a program goes on until it is done,
and its callbacks wait for their answers. A program that meets a violated precondition has
no end. `executes_reaches` shows that such a run is one of the schedules of `CallbackRuns`.
-/
namespace CallbackActivation

open CallbackProgram CallbackRuns

variable {I : Interface}

/-- A callback left with a call that has not been answered. -/
structure Callback (I : Interface) where
  call : I.Call
  onAnswer : I.Answer call → Program I

/-- The program ends, having written these messages and left these callbacks. -/
inductive Executes : Program I → List I.Message → List (Callback I) → Prop
  | done : Executes .done [] []
  | write (m : I.Message) {p : Program I} {ms : List I.Message} {ws : List (Callback I)} :
      Executes p ms ws → Executes (.write m p) (m :: ms) ws
  | acquire {p : Program I} {ms : List I.Message} {ws : List (Callback I)} :
      Executes p ms ws → Executes (.acquire p) ms ws
  | release {p : Program I} {ms : List I.Message} {ws : List (Callback I)} :
      Executes p ms ws → Executes (.release p) ms ws
  | ask (c : I.Call) {k : I.Answer c → Program I} (x : I.Answer c) {ms : List I.Message}
      {ws : List (Callback I)} : Executes (k x) ms ws → Executes (.ask c k) ms ws
  | issue (c : I.Call) (f : I.Answer c → Program I) {p : Program I} {ms : List I.Message}
      {ws : List (Callback I)} : Executes p ms ws → Executes (.issue c f p) ms (⟨c, f⟩ :: ws)

/-- One program after the other. -/
inductive ExecutesAll : List (Program I) → List I.Message → List (Callback I) → Prop
  | nil : ExecutesAll [] [] []
  | cons {p : Program I} {ps : List (Program I)} {ms ms' : List I.Message}
      {ws ws' : List (Callback I)} : Executes p ms ws → ExecutesAll ps ms' ws' →
      ExecutesAll (p :: ps) (ms ++ ms') (ws ++ ws')

theorem executesAll_singleton {p : Program I} {ms : List I.Message} {ws : List (Callback I)} :
    ExecutesAll [p] ms ws ↔ Executes p ms ws := by
  constructor
  · intro h
    cases h with
    | cons hp hnil =>
      cases hnil
      simpa using hp
  · intro h
    have hone := ExecutesAll.cons h .nil
    simpa using hone

/-- The waiting tasks of some callbacks. -/
def waiting (ws : List (Callback I)) : Multiset (Task I) :=
  ↑(ws.map fun w => Task.waiting w.call w.onAnswer)

/-- Running to the end is a schedule that leaves the callbacks waiting. -/
theorem executes_reaches {p : Program I} {ms : List I.Message} {ws : List (Callback I)}
    (h : Executes p ms ws) (s : State I) (rest : Multiset (Task I))
    (hs : s.tasks = .running p ::ₘ rest) :
    ∃ t, Reaches s t ∧ t.tasks = waiting ws + rest ∧ t.messages = s.messages ++ ms := by
  induction h generalizing s rest with
  | done =>
    exact ⟨_, .single (.act s _ rest _ hs .finish), by simp [after, waiting], by simp [after]⟩
  | @write m p _ _ _ ih =>
    obtain ⟨t, ht, htasks, hmessages⟩ := ih (after s rest ⟨{.running p}, 0, 0, [m]⟩) rest
      (by simp [after])
    exact ⟨t, .head (.act s _ rest _ hs (.write m p)) ht, htasks, by simpa [after] using hmessages⟩
  | @acquire p _ _ _ ih =>
    obtain ⟨t, ht, htasks, hmessages⟩ := ih (after s rest ⟨{.running p}, 1, 0, []⟩) rest
      (by simp [after])
    exact ⟨t, .head (.act s _ rest _ hs (.acquire p)) ht, htasks, by simpa [after] using hmessages⟩
  | @release p _ _ _ ih =>
    obtain ⟨t, ht, htasks, hmessages⟩ := ih (after s rest ⟨{.running p}, 0, 1, []⟩) rest
      (by simp [after])
    exact ⟨t, .head (.act s _ rest _ hs (.release p)) ht, htasks, by simpa [after] using hmessages⟩
  | @ask c k x _ _ _ ih =>
    obtain ⟨t, ht, htasks, hmessages⟩ := ih (after s rest ⟨{.running (k x)}, 0, 0, []⟩) rest
      (by simp [after])
    exact ⟨t, .head (.act s _ rest _ hs (.ask c k x)) ht, htasks, by simpa [after] using hmessages⟩
  | @issue c f p _ _ _ ih =>
    obtain ⟨t, ht, htasks, hmessages⟩ :=
      ih (after s rest ⟨{.waiting c f, .running p}, 0, 0, []⟩) (.waiting c f ::ₘ rest)
        (by simp [after, Multiset.cons_swap])
    refine ⟨t, .head (.act s _ rest _ hs (.issue c f p)) ht, ?_, by simpa [after] using hmessages⟩
    simp [htasks, waiting, ← Multiset.cons_coe]

/-- Nothing is written and nothing is left to wait. -/
def Quiet : Program I → Prop
  | .done => True
  | .abort => True
  | .write _ _ => False
  | .acquire p => Quiet p
  | .release p => Quiet p
  | .ask _ k => ∀ x, Quiet (k x)
  | .issue _ _ _ => False

/-- The program writes one message, or leaves the message to one callback, unless it
meets a violated precondition. -/
def Answers : Program I → Prop
  | .done => False
  | .abort => True
  | .write _ p => Quiet p
  | .acquire p => Answers p
  | .release p => Answers p
  | .ask _ k => ∀ x, Answers (k x)
  | .issue _ f p => (∀ x, Answers (f x)) ∧ Quiet p

theorem inPhase_quiet {p : Program I} (h : InPhase .answered p) : Quiet p := by
  induction p with
  | release p =>
    rw [(inPhase_answered_release p).mp h]
    trivial
  | ask c k ih => exact fun x => ih x ((inPhase_ask _ c k).mp h x)
  | done | abort | write | acquire | issue => simp [InPhase] at h

/-- A program in a phase that owes a message answers. -/
theorem inPhase_answers {ph : Phase} {p : Program I} (hph : ph ≠ .answered)
    (h : InPhase ph p) : Answers p := by
  induction p generalizing ph with
  | done | abort | release => cases ph <;> simp [InPhase] at h hph
  | write m p =>
    cases ph with
    | fresh =>
      rw [(inPhase_fresh_write m p).mp h]
      trivial
    | held => exact inPhase_quiet ((inPhase_held_write m p).mp h)
    | answered => exact absurd rfl hph
  | acquire p ih =>
    cases ph with
    | fresh => exact ih (by decide) ((inPhase_fresh_acquire p).mp h)
    | held | answered => simp [InPhase] at h
  | ask c k ih => exact fun x => ih x hph ((inPhase_ask _ c k).mp h x)
  | issue c f p ihf =>
    cases ph with
    | held =>
      obtain ⟨hf, hp⟩ := (inPhase_held_issue c f p).mp h
      rw [hp]
      exact ⟨fun x => ihf x (by decide) (hf x), trivial⟩
    | fresh | answered => simp [InPhase] at h

theorem quiet_executes {p : Program I} {ms : List I.Message} {ws : List (Callback I)}
    (h : Quiet p) (he : Executes p ms ws) : ms = [] ∧ ws = [] := by
  induction he with
  | done => exact ⟨rfl, rfl⟩
  | write | issue => exact h.elim
  | acquire _ ih | release _ ih => exact ih h
  | ask c x _ ih => exact ih (h x)

/-- What such a program leaves: its message, or one callback that answers in turn. -/
theorem answers_executes {p : Program I} {ms : List I.Message} {ws : List (Callback I)}
    (h : Answers p) (he : Executes p ms ws) :
    (∃ m, ms = [m] ∧ ws = []) ∨
      (ms = [] ∧ ∃ w, ws = [w] ∧ ∀ x, Answers (w.onAnswer x)) := by
  induction he with
  | done => exact h.elim
  | write m hp =>
    obtain ⟨rfl, rfl⟩ := quiet_executes h hp
    exact .inl ⟨m, rfl, rfl⟩
  | acquire _ ih | release _ ih => exact ih h
  | ask c x _ ih => exact ih (h x)
  | issue c f hp =>
    obtain ⟨rfl, rfl⟩ := quiet_executes h.2 hp
    exact .inr ⟨rfl, ⟨c, f⟩, rfl, h.1⟩

end CallbackActivation
