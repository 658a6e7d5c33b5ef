import PoolFrontend.CallbackRuns

/-!
# The events of a program in an environment

The environment answers every call from its own state. Callbacks run as soon as
their call is made; `run_reaches` shows that this is one of the schedules of
`CallbackRuns`. The rules below compare two environments call by call.
-/
namespace CallbackTrace

open CallbackProgram CallbackRuns

variable {I : Interface} {σ : Type}

/-- Who wrote a message: the handler itself or a callback it left behind. -/
inductive Origin where
  | handler | callback
  deriving DecidableEq, Repr

/-- What can be seen of a run from outside; an undefined operation is seen as well. -/
inductive Event (I : Interface) where
  | called : I.Call → Event I
  | wrote : Origin → I.Message → Event I
  | acquired : Event I
  | released : Event I
  | aborted : Event I

/-- An answer to every call, and the state after it. -/
abbrev Environment (I : Interface) (σ : Type) := σ → (c : I.Call) → I.Answer c × σ

/-- A callback is run where its call is issued, and the handler goes on after it. -/
def run (serve : Environment I σ) : Program I → Origin → σ → List (Event I) × σ
  | .done, _, s => ([], s)
  | .abort, _, s => ([.aborted], s)
  | .write m p, o, s => (.wrote o m :: (run serve p o s).1, (run serve p o s).2)
  | .acquire p, o, s => (.acquired :: (run serve p o s).1, (run serve p o s).2)
  | .release p, o, s => (.released :: (run serve p o s).1, (run serve p o s).2)
  | .ask c k, o, s =>
    let next := run serve (k (serve s c).1) o (serve s c).2
    (.called c :: next.1, next.2)
  | .issue c f p, o, s =>
    let first := run serve (f (serve s c).1) .callback (serve s c).2
    let next := run serve p o first.2
    (.called c :: (first.1 ++ next.1), next.2)

section RunLemmas

variable (serve : Environment I σ) (o : Origin) (s : σ)

@[simp] theorem run_done : run serve .done o s = ([], s) := rfl
@[simp] theorem run_abort : run serve .abort o s = ([.aborted], s) := rfl
@[simp] theorem run_write (m : I.Message) (p : Program I) : run serve (.write m p) o s =
    (.wrote o m :: (run serve p o s).1, (run serve p o s).2) := rfl
@[simp] theorem run_acquire (p : Program I) : run serve (.acquire p) o s =
    (.acquired :: (run serve p o s).1, (run serve p o s).2) := rfl
@[simp] theorem run_release (p : Program I) : run serve (.release p) o s =
    (.released :: (run serve p o s).1, (run serve p o s).2) := rfl
@[simp] theorem run_ask (c : I.Call) (k : I.Answer c → Program I) : run serve (.ask c k) o s =
    (.called c :: (run serve (k (serve s c).1) o (serve s c).2).1,
      (run serve (k (serve s c).1) o (serve s c).2).2) := rfl

theorem run_issue (c : I.Call) (f : I.Answer c → Program I) (p : Program I) :
    run serve (.issue c f p) o s =
      (.called c :: ((run serve (f (serve s c).1) .callback (serve s c).2).1 ++
        (run serve p o (run serve (f (serve s c).1) .callback (serve s c).2).2).1),
      (run serve p o (run serve (f (serve s c).1) .callback (serve s c).2).2).2) := rfl

/-- Nothing follows an asynchronous call that is the last statement. -/
@[simp] theorem run_issue_done (c : I.Call) (f : I.Answer c → Program I) :
    run serve (.issue c f .done) o s =
      (.called c :: (run serve (f (serve s c).1) .callback (serve s c).2).1,
      (run serve (f (serve s c).1) .callback (serve s c).2).2) := by
  simp [run_issue]

end RunLemmas

/-- The calls of a run, in their order. -/
def calls : List (Event I) → List I.Call
  | [] => []
  | .called c :: es => c :: calls es
  | _ :: es => calls es

/-- The messages, whoever wrote them. -/
def messages : List (Event I) → List I.Message
  | [] => []
  | .wrote _ m :: es => m :: messages es
  | _ :: es => messages es

def acquisitions : List (Event I) → Nat
  | [] => 0
  | .acquired :: es => acquisitions es + 1
  | _ :: es => acquisitions es

def releases : List (Event I) → Nat
  | [] => 0
  | .released :: es => releases es + 1
  | _ :: es => releases es

@[simp] theorem calls_nil : calls ([] : List (Event I)) = [] := rfl
@[simp] theorem calls_called (c : I.Call) (es : List (Event I)) :
    calls (.called c :: es) = c :: calls es := rfl
@[simp] theorem calls_wrote (o : Origin) (m : I.Message) (es : List (Event I)) :
    calls (.wrote o m :: es) = calls es := rfl
@[simp] theorem calls_acquired (es : List (Event I)) : calls (.acquired :: es) = calls es := rfl
@[simp] theorem calls_released (es : List (Event I)) : calls (.released :: es) = calls es := rfl
@[simp] theorem calls_aborted (es : List (Event I)) : calls (.aborted :: es) = calls es := rfl

/-- What is counted or listed of two runs is what is of the first and then of the second. -/
theorem calls_append (es fs : List (Event I)) : calls (es ++ fs) = calls es ++ calls fs := by
  induction es with
  | nil => rfl
  | cons e es ih => cases e <;> simp [ih]

theorem messages_append (es fs : List (Event I)) :
    messages (es ++ fs) = messages es ++ messages fs := by
  induction es with
  | nil => rfl
  | cons e es ih => cases e <;> simp [messages, ih]

theorem acquisitions_append (es fs : List (Event I)) :
    acquisitions (es ++ fs) = acquisitions es + acquisitions fs := by
  induction es with
  | nil => simp [acquisitions]
  | cons e es ih => cases e <;> simp [acquisitions, ih]; omega

theorem releases_append (es fs : List (Event I)) :
    releases (es ++ fs) = releases es + releases fs := by
  induction es with
  | nil => simp [releases]
  | cons e es ih => cases e <;> simp [releases, ih]; omega

theorem mem_calls {c : I.Call} {es : List (Event I)} : c ∈ calls es ↔ .called c ∈ es := by
  induction es with
  | nil => simp
  | cons e es ih => cases e <;> simp [ih]

/-- Adding what a list of events adds to the counts and messages of a state. -/
def advance (s : State I) (tasks : Multiset (Task I)) (es : List (Event I)) : State I :=
  ⟨tasks, s.acquired + acquisitions es, s.released + releases es, s.messages ++ messages es⟩

theorem step_of {s : State I} {rest : Multiset (Task I)} {a : Action I} {u : State I} {t : Task I}
    (h : s.tasks = t ::ₘ rest) (ha : Acts t a) (hu : u = after s rest a) : Step s u := by
  subst hu
  exact .act s t rest a h ha

/-- Unless it aborts, the run is a schedule: every callback delivered at once. -/
theorem run_reaches (serve : Environment I σ) (p : Program I) (o : Origin) (x : σ)
    (h : .aborted ∉ (run serve p o x).1) (s : State I) (rest : Multiset (Task I))
    (hs : s.tasks = .running p ::ₘ rest) :
    Reaches s (advance s rest (run serve p o x).1) := by
  induction p generalizing o x s rest with
  | done =>
    refine .single (step_of hs .finish ?_)
    simp [advance, after, acquisitions, releases, messages]
  | abort => simp at h
  | write m p ih =>
    have hr := ih o x (by simpa using h) (after s rest ⟨{.running p}, 0, 0, [m]⟩) rest
      (by simp [after])
    refine .head (step_of hs (.write m p) rfl) ?_
    simpa [advance, after, acquisitions, releases, messages] using hr
  | acquire p ih =>
    have hr := ih o x (by simpa using h) (after s rest ⟨{.running p}, 1, 0, []⟩) rest
      (by simp [after])
    refine .head (step_of hs (.acquire p) rfl) ?_
    simpa [advance, after, acquisitions, releases, messages, Nat.add_assoc, Nat.add_comm 1] using hr
  | release p ih =>
    have hr := ih o x (by simpa using h) (after s rest ⟨{.running p}, 0, 1, []⟩) rest
      (by simp [after])
    refine .head (step_of hs (.release p) rfl) ?_
    simpa [advance, after, acquisitions, releases, messages, Nat.add_assoc, Nat.add_comm 1] using hr
  | ask c k ih =>
    have hr := ih (serve x c).1 o (serve x c).2 (by simpa using h)
      (after s rest ⟨{.running (k (serve x c).1)}, 0, 0, []⟩) rest (by simp [after])
    refine .head (step_of hs (.ask c k (serve x c).1) rfl) ?_
    simpa [advance, after, acquisitions, releases, messages] using hr
  | issue c f p ihf ihp =>
    rw [run_issue] at h ⊢
    have hf : .aborted ∉ (run serve (f (serve x c).1) .callback (serve x c).2).1 := by
      intro hm
      exact h (by simp [hm])
    have hp : .aborted ∉ (run serve p o
        (run serve (f (serve x c).1) .callback (serve x c).2).2).1 := by
      intro hm
      exact h (by simp [hm])
    have hissue := step_of hs (.issue c f p) rfl
    have htasks : (after s rest ⟨{.waiting c f, .running p}, 0, 0, []⟩).tasks =
        .waiting c f ::ₘ .running p ::ₘ rest := by simp [after]
    have hdeliver : Step (after s rest ⟨{.waiting c f, .running p}, 0, 0, []⟩)
        (after s rest ⟨{.running (f (serve x c).1), .running p}, 0, 0, []⟩) :=
      step_of htasks (.deliver c f (serve x c).1)
        (by simp [after, Multiset.cons_swap (Task.running p)])
    have hfirst := ihf (serve x c).1 .callback (serve x c).2 hf
      (after s rest ⟨{.running (f (serve x c).1), .running p}, 0, 0, []⟩)
      (.running p ::ₘ rest) (by simp [after])
    have hnext := ihp o (run serve (f (serve x c).1) .callback (serve x c).2).2 hp
      (advance (after s rest ⟨{.running (f (serve x c).1), .running p}, 0, 0, []⟩)
        (.running p ::ₘ rest) (run serve (f (serve x c).1) .callback (serve x c).2).1)
      rest rfl
    refine .head hissue (.head hdeliver (hfirst.trans ?_))
    simpa [advance, after, acquisitions, releases, messages, acquisitions_append,
      releases_append, messages_append, Nat.add_assoc] using hnext

/-- Every call the program can make satisfies `P`, along the answers admitted. -/
def Calls (admitted : (c : I.Call) → I.Answer c → Prop) (P : I.Call → Prop) : Program I → Prop
  | .done => True
  | .abort => True
  | .write _ p => Calls admitted P p
  | .acquire p => Calls admitted P p
  | .release p => Calls admitted P p
  | .ask c k => P c ∧ ∀ x, admitted c x → Calls admitted P (k x)
  | .issue c f p => P c ∧ (∀ x, admitted c x → Calls admitted P (f x)) ∧ Calls admitted P p

section CallsLemmas

variable {admitted : (c : I.Call) → I.Answer c → Prop} {P : I.Call → Prop}

@[simp] theorem calls_of_done : Calls admitted P .done := trivial
@[simp] theorem calls_of_abort : Calls admitted P .abort := trivial
@[simp] theorem calls_of_write (m : I.Message) (p : Program I) :
    Calls admitted P (.write m p) ↔ Calls admitted P p := Iff.rfl
@[simp] theorem calls_of_acquire (p : Program I) :
    Calls admitted P (.acquire p) ↔ Calls admitted P p := Iff.rfl
@[simp] theorem calls_of_release (p : Program I) :
    Calls admitted P (.release p) ↔ Calls admitted P p := Iff.rfl
@[simp] theorem calls_of_ask (c : I.Call) (k : I.Answer c → Program I) :
    Calls admitted P (.ask c k) ↔ P c ∧ ∀ x, admitted c x → Calls admitted P (k x) := Iff.rfl
@[simp] theorem calls_of_issue (c : I.Call) (f : I.Answer c → Program I) (p : Program I) :
    Calls admitted P (.issue c f p) ↔
      P c ∧ (∀ x, admitted c x → Calls admitted P (f x)) ∧ Calls admitted P p := Iff.rfl
@[simp] theorem calls_of_ite (b : Prop) [Decidable b] (p q : Program I) :
    Calls admitted P (if b then p else q) ↔
      (b → Calls admitted P p) ∧ (¬ b → Calls admitted P q) := by
  split <;> simp_all

/-- An environment property kept by every permitted call is kept by the run. -/
theorem run_keeps {serve : Environment I σ} {Keeps : σ → Prop}
    (hserve : ∀ s c, Keeps s → P c → admitted c (serve s c).1 ∧ Keeps (serve s c).2)
    (p : Program I) (hp : Calls admitted P p) (o : Origin) (s : σ) (hs : Keeps s) :
    Keeps (run serve p o s).2 := by
  induction p generalizing o s with
  | done | abort => exact hs
  | write m p ih | acquire p ih | release p ih => exact ih hp o s hs
  | ask c k ih =>
    have h := hserve s c hs hp.1
    exact ih _ (hp.2 _ h.1) o _ h.2
  | issue c f p ihf ihp =>
    have h := hserve s c hs hp.1
    rw [run_issue]
    exact ihp hp.2.2 o _ (ihf _ (hp.2.1 _ h.1) .callback _ h.2)

/-- Two environments that agree on every permitted call give the same events. -/
theorem run_agree {serve : Environment I σ} {Agree : σ → σ → Prop}
    (hserve : ∀ s t c, Agree s t → P c → (serve s c).1 = (serve t c).1 ∧
      admitted c (serve s c).1 ∧ Agree (serve s c).2 (serve t c).2)
    (p : Program I) (hp : Calls admitted P p) (o : Origin) (s t : σ) (hst : Agree s t) :
    (run serve p o s).1 = (run serve p o t).1 ∧
      Agree (run serve p o s).2 (run serve p o t).2 := by
  induction p generalizing o s t with
  | done | abort => exact ⟨rfl, hst⟩
  | write m p ih | acquire p ih | release p ih =>
    have h := ih hp o s t hst
    exact ⟨by simp [h.1], h.2⟩
  | ask c k ih =>
    obtain ⟨heq, hadm, hagree⟩ := hserve s t c hst hp.1
    have h := ih _ (hp.2 _ hadm) o _ _ hagree
    simp only [run_ask]
    rw [heq] at h ⊢
    exact ⟨by rw [h.1], h.2⟩
  | issue c f p ihf ihp =>
    obtain ⟨heq, hadm, hagree⟩ := hserve s t c hst hp.1
    have hf := ihf _ (hp.2.1 _ hadm) .callback _ _ hagree
    have hn := ihp hp.2.2 o _ _ hf.2
    simp only [run_issue]
    rw [heq] at hf hn ⊢
    exact ⟨by rw [hf.1, hn.1], hn.2⟩

end CallsLemmas

end CallbackTrace
