import PoolFrontend.CallbackProgram

/-!
# Every schedule of a program and its callbacks

A state holds the running programs, the callbacks still waiting for an answer,
the reference counts and the messages written. One step lets any task act. No
order of the tasks and no delay of an answer is excluded.
-/
namespace CallbackRuns

open CallbackProgram

variable {I : Interface}

inductive Task (I : Interface) where
  | running : Program I → Task I
  | waiting : (c : I.Call) → (I.Answer c → Program I) → Task I

/-- What one action of a task leaves behind and adds to the counts. -/
structure Action (I : Interface) where
  tasks : Multiset (Task I)
  acquired : Nat
  released : Nat
  messages : List I.Message

/-- The actions of one task; every answer is possible. -/
inductive Acts : Task I → Action I → Prop
  | finish : Acts (.running .done) ⟨0, 0, 0, []⟩
  | write (m : I.Message) (p : Program I) :
      Acts (.running (.write m p)) ⟨{.running p}, 0, 0, [m]⟩
  | acquire (p : Program I) : Acts (.running (.acquire p)) ⟨{.running p}, 1, 0, []⟩
  | release (p : Program I) : Acts (.running (.release p)) ⟨{.running p}, 0, 1, []⟩
  | ask (c : I.Call) (k : I.Answer c → Program I) (x : I.Answer c) :
      Acts (.running (.ask c k)) ⟨{.running (k x)}, 0, 0, []⟩
  | issue (c : I.Call) (f : I.Answer c → Program I) (p : Program I) :
      Acts (.running (.issue c f p)) ⟨{.waiting c f, .running p}, 0, 0, []⟩
  | deliver (c : I.Call) (f : I.Answer c → Program I) (x : I.Answer c) :
      Acts (.waiting c f) ⟨{.running (f x)}, 0, 0, []⟩

structure State (I : Interface) where
  tasks : Multiset (Task I)
  acquired : Nat
  released : Nat
  messages : List I.Message

/-- The state after an action of a task whose companions are `rest`. -/
def after (s : State I) (rest : Multiset (Task I)) (a : Action I) : State I :=
  ⟨a.tasks + rest, s.acquired + a.acquired, s.released + a.released, s.messages ++ a.messages⟩

inductive Step : State I → State I → Prop
  | act (s : State I) (t : Task I) (rest : Multiset (Task I)) (a : Action I)
      (chosen : s.tasks = t ::ₘ rest) (acts : Acts t a) : Step s (after s rest a)

abbrev Reaches (s t : State I) : Prop := Relation.ReflTransGen Step s t

def start (p : Program I) : State I := ⟨{.running p}, 0, 0, []⟩

/-- An invariant of every step holds in every state a run reaches. -/
theorem reaches_invariant {Inv : State I → Prop}
    (hstep : ∀ s t, Inv s → Step s t → Inv t) {s t : State I}
    (h : Reaches s t) (hs : Inv s) : Inv t := by
  induction h with
  | refl => exact hs
  | tail _ hlast ih => exact hstep _ _ ih hlast

/-- A task left behind by an action is smaller than the task that acted. -/
def Smaller (u t : Task I) : Prop := ∃ a, Acts t a ∧ u ∈ a.tasks

theorem acc_waiting (c : I.Call) (f : I.Answer c → Program I)
    (h : ∀ x, Acc Smaller (Task.running (f x))) : Acc Smaller (Task.waiting c f) := by
  constructor
  rintro u ⟨a, ha, hu⟩
  cases ha with
  | deliver c f x =>
    rw [Multiset.mem_singleton.mp hu]
    exact h x

theorem acc_running (p : Program I) : Acc Smaller (Task.running p) := by
  induction p with
  | done =>
    constructor
    rintro u ⟨a, ha, hu⟩
    cases ha
    exact absurd hu (Multiset.notMem_zero u)
  | abort =>
    constructor
    rintro u ⟨a, ha, hu⟩
    cases ha
  | write m p ih | acquire p ih | release p ih =>
    constructor
    rintro u ⟨a, ha, hu⟩
    cases ha
    rw [Multiset.mem_singleton.mp hu]
    exact ih
  | ask c k ih =>
    constructor
    rintro u ⟨a, ha, hu⟩
    cases ha with
    | ask c k x =>
      rw [Multiset.mem_singleton.mp hu]
      exact ih x
  | issue c f p ihf ihp =>
    constructor
    rintro u ⟨a, ha, hu⟩
    cases ha with
    | issue c f p =>
      have hm : u = .waiting c f ∨ u = .running p := by simpa using hu
      rcases hm with rfl | rfl
      · exact acc_waiting c f ihf
      · exact ihp

theorem wellFounded_smaller : WellFounded (Smaller : Task I → Task I → Prop) := by
  constructor
  intro t
  cases t with
  | running p => exact acc_running p
  | waiting c f => exact acc_waiting c f (fun x => acc_running (f x))

/-- A step replaces one task by finitely many smaller ones. -/
theorem step_cutExpand {s t : State I} (h : Step s t) :
    Relation.CutExpand Smaller t.tasks s.tasks := by
  cases h with
  | act u rest a chosen acts =>
    refine ⟨a.tasks, u, fun v hv => ⟨a, acts, hv⟩, ?_⟩
    simp only [after, chosen, ← Multiset.singleton_add]
    ac_rfl

/-- No schedule runs forever, whatever the answers are. -/
theorem wellFounded_step : WellFounded (fun t s : State I => Step s t) :=
  Subrelation.wf step_cutExpand (InvImage.wf State.tasks wellFounded_smaller.cutExpand)

/-- A program that owes a message: without a reference, with one, or with one
and the message already written. -/
inductive Phase where
  | fresh | held | answered
  deriving DecidableEq, Repr

/-- The discipline of a handler: it answers at once, or it acquires a reference,
hands it to exactly one callback, and that callback answers before it releases. -/
def InPhase : Phase → Program I → Prop
  | .fresh, .write _ p => p = .done
  | .fresh, .acquire p => InPhase .held p
  | .held, .write _ p => InPhase .answered p
  | .held, .issue _ f p => (∀ x, InPhase .held (f x)) ∧ p = .done
  | .answered, .release p => p = .done
  | ph, .ask _ k => ∀ x, InPhase ph (k x)
  | _, _ => False

@[simp] theorem inPhase_fresh_write (m : I.Message) (p : Program I) :
    InPhase .fresh (.write m p) ↔ p = .done := by rw [InPhase]
@[simp] theorem inPhase_fresh_acquire (p : Program I) :
    InPhase .fresh (.acquire p) ↔ InPhase .held p := by rw [InPhase]
@[simp] theorem inPhase_held_write (m : I.Message) (p : Program I) :
    InPhase .held (.write m p) ↔ InPhase .answered p := by rw [InPhase]
@[simp] theorem inPhase_held_issue (c : I.Call) (f : I.Answer c → Program I) (p : Program I) :
    InPhase .held (.issue c f p) ↔ (∀ x, InPhase .held (f x)) ∧ p = .done := by rw [InPhase]
@[simp] theorem inPhase_answered_release (p : Program I) :
    InPhase .answered (.release p) ↔ p = .done := by rw [InPhase]
@[simp] theorem inPhase_ask (ph : Phase) (c : I.Call) (k : I.Answer c → Program I) :
    InPhase ph (.ask c k) ↔ ∀ x, InPhase ph (k x) := by cases ph <;> rw [InPhase]
@[simp] theorem inPhase_ite (ph : Phase) (b : Prop) [Decidable b] (p q : Program I) :
    InPhase ph (if b then p else q) ↔ (b → InPhase ph p) ∧ (¬ b → InPhase ph q) := by
  split <;> simp_all

def TaskInPhase : Phase → Task I → Prop
  | ph, .running p => InPhase ph p
  | .held, .waiting _ f => ∀ x, InPhase .held (f x)
  | _, .waiting _ _ => False

/-- Reference counts and number of messages belonging to a phase. -/
def counts : Phase → Nat × Nat × Nat
  | .fresh => (0, 0, 0)
  | .held => (1, 0, 0)
  | .answered => (1, 0, 1)

def Idle (tasks : Multiset (Task I)) : Prop := ∀ t ∈ tasks, t = .running .done

/-- At most one task still has something to do, and the counts are those of its phase. -/
inductive Disciplined : State I → Prop
  | live (s : State I) (ph : Phase) (t : Task I) (rest : Multiset (Task I))
      (tasks : s.tasks = t ::ₘ rest) (phase : TaskInPhase ph t) (idle : Idle rest)
      (count : (s.acquired, s.released, s.messages.length) = counts ph) : Disciplined s
  | ended (s : State I) (idle : Idle s.tasks) (message : s.messages.length = 1)
      (balanced : s.acquired = s.released) : Disciplined s

theorem disciplined_start {p : Program I} (h : InPhase .fresh p) : Disciplined (start p) :=
  .live _ .fresh (.running p) 0 rfl h (by simp [Idle]) rfl

/-- Either the live task acts, or an idle one is removed. -/
theorem chosen_cases {t u : Task I} {rest rest' : Multiset (Task I)}
    (h : u ::ₘ rest' = t ::ₘ rest) :
    (u = t ∧ rest' = rest) ∨ (u ∈ rest ∧ ∃ others, rest = u ::ₘ others ∧ rest' = t ::ₘ others) := by
  rcases Multiset.cons_eq_cons.mp h with ⟨hu, hr⟩ | ⟨_, others, hr', hr⟩
  · exact Or.inl ⟨hu, hr⟩
  · exact Or.inr ⟨by simp [hr], others, hr, hr'⟩

theorem acts_idle {a : Action I} (h : Acts (.running .done) a) : a = ⟨0, 0, 0, []⟩ := by
  cases h
  rfl

theorem count_eq {s : State I} {ph : Phase}
    (h : (s.acquired, s.released, s.messages.length) = counts ph) :
    s.acquired = (counts ph).1 ∧ s.released = (counts ph).2.1 ∧
      s.messages.length = (counts ph).2.2 := by
  rw [← h]
  exact ⟨rfl, rfl, rfl⟩

/-- What the live task does keeps the discipline. -/
theorem disciplined_live {s : State I} {ph : Phase} {t : Task I} {rest : Multiset (Task I)}
    {a : Action I} (hp : TaskInPhase ph t) (hi : Idle rest)
    (hc : (s.acquired, s.released, s.messages.length) = counts ph) (ha : Acts t a) :
    Disciplined (after s rest a) := by
  obtain ⟨hacquired, hreleased, hmessages⟩ := count_eq hc
  cases ha with
  | finish => cases ph <;> simp [TaskInPhase, InPhase] at hp
  | write m p =>
    cases ph with
    | fresh =>
      have hp : p = .done := by simpa [TaskInPhase] using hp
      refine .ended _ ?_ ?_ ?_
      · simpa [after, Idle, hp] using hi
      · simp [after, hmessages, counts]
      · simp [after, hacquired, hreleased, counts]
    | held =>
      have hp : InPhase .answered p := by simpa [TaskInPhase] using hp
      refine .live _ .answered (.running p) rest (by simp [after]) hp hi ?_
      simp [after, hacquired, hreleased, hmessages, counts]
    | answered => simp [TaskInPhase, InPhase] at hp
  | acquire p =>
    cases ph with
    | fresh =>
      have hp : InPhase .held p := by simpa [TaskInPhase] using hp
      refine .live _ .held (.running p) rest (by simp [after]) hp hi ?_
      simp [after, hacquired, hreleased, hmessages, counts]
    | held | answered => simp [TaskInPhase, InPhase] at hp
  | release p =>
    cases ph with
    | answered =>
      have hp : p = .done := by simpa [TaskInPhase] using hp
      refine .ended _ ?_ ?_ ?_
      · simpa [after, Idle, hp] using hi
      · simp [after, hmessages, counts]
      · simp [after, hacquired, hreleased, counts]
    | fresh | held => simp [TaskInPhase, InPhase] at hp
  | ask c k x =>
    have hp : ∀ x, InPhase ph (k x) := by simpa [TaskInPhase] using hp
    refine .live _ ph (.running (k x)) rest (by simp [after]) (hp x) hi ?_
    simpa [after] using hc
  | issue c f p =>
    cases ph with
    | held =>
      have hp : (∀ x, InPhase .held (f x)) ∧ p = .done := by simpa [TaskInPhase] using hp
      refine .live _ .held (.waiting c f) (.running p ::ₘ rest) ?_ hp.1 ?_ ?_
      · simp [after]
      · simpa [Idle, hp.2] using hi
      · simpa [after] using hc
    | fresh | answered => simp [TaskInPhase, InPhase] at hp
  | deliver c f x =>
    cases ph with
    | held =>
      refine .live _ .held (.running (f x)) rest (by simp [after]) (hp x) hi ?_
      simpa [after] using hc
    | fresh | answered => simp [TaskInPhase] at hp

theorem disciplined_step (s t : State I) (h : Disciplined s) (hs : Step s t) : Disciplined t := by
  cases hs with
  | act u rest' a chosen acts =>
    cases h with
    | live ph l rest tasks phase idle count =>
      rcases chosen_cases (chosen.symm.trans tasks) with ⟨rfl, rfl⟩ | ⟨hu, others, hr, hr'⟩
      · exact disciplined_live phase idle count acts
      · have hd := idle u hu
        subst hd
        have ha := acts_idle acts
        subst ha
        refine .live _ ph l others (by simp [after, hr']) phase ?_ (by simpa [after] using count)
        intro v hv
        exact idle v (by simp [hr, hv])
    | ended idle message balanced =>
      have hd := idle u (by simp [chosen])
      subst hd
      have ha := acts_idle acts
      subst ha
      refine .ended _ ?_ (by simpa [after] using message) (by simpa [after] using balanced)
      intro v hv
      exact idle v (by
        rw [chosen]
        exact Multiset.mem_cons_of_mem (by simpa [after] using hv))

/-- What holds in every state of every schedule of a disciplined program. -/
structure AnsweredOnce (s : State I) : Prop where
  atMostOne : s.messages.length ≤ 1
  neverUnder : s.released ≤ s.acquired
  referenced : ∀ c f, Task.waiting c f ∈ s.tasks → s.released < s.acquired
  releaseLast : 0 < s.released → s.messages.length = 1
  finished : s.tasks = 0 → s.messages.length = 1 ∧ s.acquired = s.released
  progress : s.tasks ≠ 0 → ∃ t, Step s t

theorem idle_acts {s : State I} {t : Task I} {rest : Multiset (Task I)}
    (h : s.tasks = t ::ₘ rest) {a : Action I} (ha : Acts t a) : ∃ u, Step s u :=
  ⟨_, .act s t rest a h ha⟩

/-- A task in a phase can always act, provided every call has an answer. -/
theorem inPhase_acts (answers : ∀ c, Nonempty (I.Answer c)) {ph : Phase} {t : Task I}
    (h : TaskInPhase ph t) : ∃ a, Acts t a := by
  cases t with
  | waiting c f =>
    obtain ⟨x⟩ := answers c
    exact ⟨_, .deliver c f x⟩
  | running p =>
    cases p with
    | done => exact ⟨_, .finish⟩
    | abort => cases ph <;> simp [TaskInPhase, InPhase] at h
    | write m p => exact ⟨_, .write m p⟩
    | acquire p => exact ⟨_, .acquire p⟩
    | release p => exact ⟨_, .release p⟩
    | ask c k =>
      obtain ⟨x⟩ := answers c
      exact ⟨_, .ask c k x⟩
    | issue c f p => exact ⟨_, .issue c f p⟩

theorem disciplined_answeredOnce (answers : ∀ c, Nonempty (I.Answer c)) {s : State I}
    (h : Disciplined s) : AnsweredOnce s := by
  cases h with
  | live ph t rest tasks phase idle count =>
    obtain ⟨hacquired, hreleased, hmessages⟩ := count_eq count
    constructor
    · rw [hmessages]
      cases ph <;> decide
    · rw [hacquired, hreleased]
      cases ph <;> decide
    · intro c f hm
      rw [tasks] at hm
      rcases Multiset.mem_cons.mp hm with rfl | hr
      · cases ph with
        | held =>
          rw [hacquired, hreleased]
          decide
        | fresh | answered => exact phase.elim
      · exact absurd (idle _ hr) (by simp)
    · intro hpos
      rw [hreleased] at hpos
      exact absurd hpos (by cases ph <;> decide)
    · intro hz
      simp [tasks] at hz
    · intro _
      obtain ⟨a, ha⟩ := inPhase_acts answers phase
      exact idle_acts tasks ha
  | ended idle message balanced =>
    constructor
    · omega
    · omega
    · intro c f hm
      exact absurd (idle _ hm) (by simp)
    · exact fun _ => message
    · exact fun _ => ⟨message, balanced⟩
    · intro hne
      obtain ⟨t, ht⟩ := Multiset.exists_mem_of_ne_zero hne
      obtain ⟨rest, hr⟩ := Multiset.exists_cons_of_mem ht
      have hd := idle t ht
      subst hd
      exact idle_acts hr .finish

/-- The run rule: a program in its fresh phase is answered once in every schedule. -/
theorem fresh_answeredOnce (answers : ∀ c, Nonempty (I.Answer c)) {p : Program I}
    (h : InPhase .fresh p) {s : State I} (hr : Reaches (start p) s) : AnsweredOnce s :=
  disciplined_answeredOnce answers
    (reaches_invariant disciplined_step hr (disciplined_start h))

/-- Some answers lead the program itself, not its callbacks, to an abort. -/
def MayAbort : Program I → Prop
  | .abort => True
  | .ask _ k => ∃ x, MayAbort (k x)
  | .write _ p => MayAbort p
  | .acquire p => MayAbort p
  | .release p => MayAbort p
  | _ => False

theorem mayAbort_reaches {p : Program I} (h : MayAbort p) (s : State I)
    (hs : s.tasks = {.running p}) : ∃ t, Reaches s t ∧ t.tasks = {.running .abort} := by
  induction p generalizing s with
  | done => exact h.elim
  | abort => exact ⟨s, .refl, hs⟩
  | write m p ih =>
    obtain ⟨t, ht, htasks⟩ := ih h (after s 0 ⟨{.running p}, 0, 0, [m]⟩) (by simp [after])
    exact ⟨t, .head (.act s _ 0 _ (by rw [hs]; rfl) (.write m p)) ht, htasks⟩
  | acquire p ih =>
    obtain ⟨t, ht, htasks⟩ := ih h (after s 0 ⟨{.running p}, 1, 0, []⟩) (by simp [after])
    exact ⟨t, .head (.act s _ 0 _ (by rw [hs]; rfl) (.acquire p)) ht, htasks⟩
  | release p ih =>
    obtain ⟨t, ht, htasks⟩ := ih h (after s 0 ⟨{.running p}, 0, 1, []⟩) (by simp [after])
    exact ⟨t, .head (.act s _ 0 _ (by rw [hs]; rfl) (.release p)) ht, htasks⟩
  | ask c k ih =>
    obtain ⟨x, hx⟩ := h
    obtain ⟨t, ht, htasks⟩ := ih x hx (after s 0 ⟨{.running (k x)}, 0, 0, []⟩) (by simp [after])
    exact ⟨t, .head (.act s _ 0 _ (by rw [hs]; rfl) (.ask c k x)) ht, htasks⟩
  | issue c f p => exact h.elim

/-- A program that may abort is stuck there without its final state. -/
theorem mayAbort_not_answered {p : Program I} (h : MayAbort p) :
    ¬ ∀ s, Reaches (start p) s → AnsweredOnce s := by
  intro hall
  obtain ⟨t, ht, htasks⟩ := mayAbort_reaches h (start p) rfl
  obtain ⟨u, hu⟩ := (hall t ht).progress (by simp [htasks])
  cases hu with
  | act task rest a chosen acts =>
    rw [htasks] at chosen
    have htask : task = .running .abort := by
      have hmem : task ∈ ({.running .abort} : Multiset (Task I)) := by simp [chosen]
      exact Multiset.mem_singleton.mp hmem
    subst htask
    cases acts

end CallbackRuns
