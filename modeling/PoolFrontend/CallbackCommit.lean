import PoolFrontend.CallbackTrace

/-!
# Checks first, one commit last

Some calls mutate, some messages report a failure. A program that commits last makes
at most one mutating call, after everything else it decides, and reports no failure
of its own once it has made it. What callbacks report is not the program's own.
-/
namespace CallbackCommit

open CallbackProgram CallbackTrace

variable {I : Interface} {σ : Type} (mutates : I.Call → Bool) (failure : I.Message → Prop)

/-- No call mutates, in the program or its callbacks. -/
abbrev Never (p : Program I) : Prop := Calls (fun _ _ => True) (fun c => mutates c = false) p

/-- The program itself reports no failure. -/
def Silent : Program I → Prop
  | .done => True
  | .abort => True
  | .write m p => ¬ failure m ∧ Silent p
  | .acquire p => Silent p
  | .release p => Silent p
  | .ask _ k => ∀ x, Silent (k x)
  | .issue _ _ p => Silent p

def CommitsLast : Program I → Prop
  | .done => True
  | .abort => True
  | .write _ p => Never mutates p
  | .acquire p => CommitsLast p
  | .release p => CommitsLast p
  | .ask c k =>
    (mutates c = false → ∀ x, CommitsLast (k x)) ∧
      (mutates c = true → ∀ x, Never mutates (k x) ∧ Silent failure (k x))
  | .issue c f p =>
    (∀ x, Never mutates (f x)) ∧ Never mutates p ∧ (mutates c = true → Silent failure p)

/-- What the events of such a program show. -/
structure Committed (es : List (Event I)) : Prop where
  rejected : (∃ m, failure m ∧ .wrote .handler m ∈ es) → ∀ c ∈ calls es, mutates c = false
  last : ∀ c ∈ calls es, mutates c = true → ∃ before after, es = before ++ .called c :: after ∧
    (∀ o m, .wrote o m ∉ before) ∧ ∀ d ∈ calls before ++ calls after, mutates d = false

/-- Every call of a run satisfies what every call of the program satisfies. -/
theorem calls_run {admitted : (c : I.Call) → I.Answer c → Prop} {P : I.Call → Prop}
    {serve : Environment I σ} (hserve : ∀ s c, admitted c (serve s c).1) {p : Program I}
    (hp : Calls admitted P p) (o : Origin) (s : σ) : ∀ c ∈ calls (run serve p o s).1, P c := by
  induction p generalizing o s with
  | done | abort => simp
  | write m p ih | acquire p ih | release p ih => simpa using ih hp o s
  | ask c k ih =>
    intro d hd
    rcases List.mem_cons.mp hd with rfl | hd
    · exact hp.1
    · exact ih _ (hp.2 _ (hserve s c)) o _ d hd
  | issue c f p ihf ihp =>
    intro d hd
    rw [run_issue] at hd
    rcases List.mem_cons.mp hd with rfl | hd
    · exact hp.1
    · rw [calls_append] at hd
      rcases List.mem_append.mp hd with hd | hd
      · exact ihf _ (hp.2.1 _ (hserve s c)) .callback _ d hd
      · exact ihp hp.2.2 o _ d hd

theorem never_run (serve : Environment I σ) {p : Program I} (hp : Never mutates p) (o : Origin)
    (s : σ) : ∀ c ∈ calls (run serve p o s).1, mutates c = false :=
  calls_run (fun _ _ => trivial) hp o s

/-- A callback writes nothing in the name of the handler. -/
theorem run_callback_wrote (serve : Environment I σ) (p : Program I) (s : σ) (m : I.Message) :
    .wrote .handler m ∉ (run serve p .callback s).1 := by
  induction p generalizing s with
  | done | abort => simp
  | write m' p ih | acquire p ih | release p ih => simp [ih]
  | ask c k ih => simp [ih]
  | issue c f p ihf ihp => simp [run_issue, ihf, ihp]

theorem silent_run (serve : Environment I σ) {p : Program I} (hp : Silent failure p) (s : σ)
    {m : I.Message} (hm : failure m) : .wrote .handler m ∉ (run serve p .handler s).1 := by
  induction p generalizing s with
  | done | abort => simp
  | write m' p ih =>
    intro hmem
    rcases List.mem_cons.mp hmem with he | hmem
    · cases he
      exact hp.1 hm
    · exact ih hp.2 s hmem
  | acquire p ih | release p ih => simpa using ih hp s
  | ask c k ih => simpa using ih _ (hp (serve s c).1) (serve s c).2
  | issue c f p ihf ihp =>
    rw [run_issue]
    intro hmem
    rcases List.mem_cons.mp hmem with he | hmem
    · cases he
    · rcases List.mem_append.mp hmem with hmem | hmem
      · exact run_callback_wrote serve _ _ m hmem
      · exact ihp hp _ hmem

/-- A program that never mutates has nothing to commit. -/
theorem never_commitsLast {p : Program I} (hp : Never mutates p) :
    CommitsLast mutates failure p := by
  induction p with
  | done | abort => trivial
  | write m p ih => exact hp
  | acquire p ih | release p ih => exact ih hp
  | ask c k ih =>
    refine ⟨fun _ x => ih x (hp.2 x trivial), ?_⟩
    intro hm
    rw [hp.1] at hm
    cases hm
  | issue c f p ihf ihp =>
    refine ⟨fun x => hp.2.1 x trivial, hp.2.2, ?_⟩
    intro hm
    rw [hp.1] at hm
    cases hm

section Rules

variable {mutates failure}

theorem committed_never {es : List (Event I)} (h : ∀ c ∈ calls es, mutates c = false) :
    Committed mutates failure es := by
  refine ⟨fun _ => h, ?_⟩
  intro c hc hm
  rw [h c hc] at hm
  cases hm

/-- An event that is neither a mutating call nor a message may come first. -/
theorem committed_cons {e : Event I} {es : List (Event I)} (hw : ∀ o m, e ≠ .wrote o m)
    (hc : ∀ c, e = .called c → mutates c = false) (h : Committed mutates failure es) :
    Committed mutates failure (e :: es) := by
  have hcalls : ∀ d ∈ calls (e :: es), mutates d = true → d ∈ calls es := by
    intro d hd hm
    rcases List.mem_cons.mp (mem_calls.mp hd) with he | hd
    · rw [hc d he.symm] at hm
      cases hm
    · exact mem_calls.mpr hd
  refine ⟨?_, ?_⟩
  · rintro ⟨m, hm, hmem⟩ d hd
    have hes : .wrote .handler m ∈ es := by
      rcases List.mem_cons.mp hmem with he | hes
      · exact absurd he.symm (hw _ _)
      · exact hes
    by_contra hmut
    have hmut : mutates d = true := by simpa using hmut
    have := h.rejected ⟨m, hm, hes⟩ d (hcalls d hd hmut)
    rw [this] at hmut
    cases hmut
  · intro d hd hm
    obtain ⟨before, after, heq, hwrote, hother⟩ := h.last d (hcalls d hd hm) hm
    refine ⟨e :: before, after, by rw [heq]; rfl, ?_, ?_⟩
    · intro o m hmem
      rcases List.mem_cons.mp hmem with he | hmem
      · exact hw o m he.symm
      · exact hwrote o m hmem
    · intro x hx
      rcases List.mem_append.mp hx with hx | hx
      · rcases List.mem_cons.mp (mem_calls.mp hx) with he | hx
        · exact hc x he.symm
        · exact hother x (List.mem_append_left _ (mem_calls.mpr hx))
      · exact hother x (List.mem_append_right _ hx)

/-- A call followed by nothing that mutates and no failure. -/
theorem committed_call {c : I.Call} {es : List (Event I)}
    (hc : ∀ d ∈ calls es, mutates d = false)
    (hw : mutates c = true → ∀ m, failure m → .wrote .handler m ∉ es) :
    Committed mutates failure (.called c :: es) := by
  by_cases hm : mutates c = true
  · refine ⟨?_, ?_⟩
    · rintro ⟨m, hfail, hmem⟩
      rcases List.mem_cons.mp hmem with he | hmem
      · cases he
      · exact absurd hmem (hw hm m hfail)
    · intro d hd hmd
      rcases List.mem_cons.mp hd with rfl | hd
      · exact ⟨[], es, rfl, by simp, by simpa using hc⟩
      · rw [hc d hd] at hmd
        cases hmd
  · apply committed_never
    intro d hd
    rcases List.mem_cons.mp hd with rfl | hd
    · simpa using hm
    · exact hc d hd

theorem commitsLast_run (serve : Environment I σ) {p : Program I}
    (hp : CommitsLast mutates failure p) (s : σ) :
    Committed mutates failure (run serve p .handler s).1 := by
  induction p generalizing s with
  | done => exact committed_never (by simp)
  | abort => exact committed_never (by simp)
  | write m p ih => exact committed_never (by simpa using never_run mutates serve hp .handler s)
  | acquire p ih | release p ih => exact committed_cons (by simp) (by simp) (ih hp s)
  | ask c k ih =>
    by_cases hm : mutates c = true
    · obtain ⟨hnever, hsilent⟩ := hp.2 hm (serve s c).1
      exact committed_call (never_run mutates serve hnever .handler _)
        (fun _ m hfail => silent_run failure serve hsilent _ hfail)
    · have hm : mutates c = false := by simpa using hm
      refine committed_cons (by simp) ?_ (ih _ (hp.1 hm _) _)
      intro d hd
      cases hd
      exact hm
  | issue c f p ihf ihp =>
    rw [run_issue]
    apply committed_call
    · intro d hd
      rw [calls_append] at hd
      exact (List.mem_append.mp hd).elim (never_run mutates serve (hp.1 _) .callback _ d)
        (never_run mutates serve hp.2.1 .handler _ d)
    · intro hm m hfail hmem
      rcases List.mem_append.mp hmem with hmem | hmem
      · exact run_callback_wrote serve _ _ m hmem
      · exact silent_run failure serve (hp.2.2 hm) _ hfail hmem

end Rules

end CallbackCommit
