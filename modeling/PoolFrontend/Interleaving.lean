import Mathlib.Data.List.Basic
import Mathlib.Data.List.Induction

/-!
# Components that come and run side by side

A system starts empty. At any time a fresh component joins it, or one component takes a step
of its own. The runs of the system are exactly the interleavings of the runs of its components,
each begun after it has joined.
-/
namespace Interleaving

variable {σ ℓ : Type} {Fresh : σ → Prop} {Step : σ → ℓ → σ → Prop}

inductive Run (Step : σ → ℓ → σ → Prop) (start : σ) : List ℓ → σ → Prop
  | nil : Run Step start [] start
  | snoc {mid last : σ} {labels : List ℓ} {label : ℓ} :
      Run Step start labels mid → Step mid label last → Run Step start (labels ++ [label]) last

/-- The run rule of a component: what its steps keep holds at the end of its runs. -/
theorem Run.keeps {P : σ → Prop} (hstep : ∀ c label c', P c → Step c label c' → P c')
    {start last : σ} {labels : List ℓ} (h : Run Step start labels last) (hstart : P start) :
    P last := by
  induction h with
  | nil => exact hstart
  | snoc _ hlast ih => exact hstep _ _ _ ih hlast

theorem Run.trans {start mid last : σ} {before after : List ℓ} (h : Run Step start before mid)
    (h' : Run Step mid after last) : Run Step start (before ++ after) last := by
  induction h' with
  | nil =>
    rw [List.append_nil]
    exact h
  | snoc _ hlast ih =>
    rw [← List.append_assoc]
    exact ih.snoc hlast

theorem Run.of_nil {start last : σ} (h : Run Step start [] last) : last = start := by
  generalize hall : ([] : List ℓ) = all at h
  cases h with
  | nil => rfl
  | snoc hrun hlast => simp at hall

theorem Run.of_snoc {start last : σ} {labels : List ℓ} {label : ℓ}
    (h : Run Step start (labels ++ [label]) last) :
    ∃ mid, Run Step start labels mid ∧ Step mid label last := by
  generalize hall : labels ++ [label] = all at h
  cases h with
  | nil => simp at hall
  | snoc hrun hlast =>
    obtain ⟨rfl, hlabel⟩ := List.append_inj' hall rfl
    cases hlabel
    exact ⟨_, hrun, hlast⟩

/-- A component joins, or the one at a place takes a step. -/
inductive Label (ℓ : Type) where
  | join
  | act (i : Nat) (label : ℓ)

/-- A component keeps the place at which it joined. -/
inductive SystemStep (Fresh : σ → Prop) (Step : σ → ℓ → σ → Prop) :
    List σ → Label ℓ → List σ → Prop
  | join {cs : List σ} {c : σ} (fresh : Fresh c) : SystemStep Fresh Step cs .join (cs ++ [c])
  | act {cs : List σ} {i : Nat} {c c' : σ} {label : ℓ} (found : cs[i]? = some c)
      (step : Step c label c') : SystemStep Fresh Step cs (.act i label) (cs.set i c')

/-- How many components have joined. -/
def joined : List (Label ℓ) → Nat
  | [] => 0
  | .join :: labels => joined labels + 1
  | .act _ _ :: labels => joined labels

/-- The steps of the component at a place. -/
def labelsOf (i : Nat) : List (Label ℓ) → List ℓ
  | [] => []
  | .join :: labels => labelsOf i labels
  | .act j label :: labels => if j = i then label :: labelsOf i labels else labelsOf i labels

/-- With `n` components at the start, none acts before it has joined. -/
def Ordered : (n : Nat) → List (Label ℓ) → Prop
  | _, [] => True
  | n, .join :: labels => Ordered (n + 1) labels
  | n, .act i _ :: labels => i < n ∧ Ordered n labels

theorem joined_append (xs ys : List (Label ℓ)) : joined (xs ++ ys) = joined xs + joined ys := by
  induction xs with
  | nil => simp [joined]
  | cons x xs ih =>
    cases x with
    | join =>
      simp only [List.cons_append, joined, ih]
      omega
    | act i label => simpa [joined] using ih

theorem labelsOf_append (i : Nat) (xs ys : List (Label ℓ)) :
    labelsOf i (xs ++ ys) = labelsOf i xs ++ labelsOf i ys := by
  induction xs with
  | nil => rfl
  | cons x xs ih =>
    cases x with
    | join => exact ih
    | act j label =>
      by_cases hj : j = i
      · simp [labelsOf, hj, ih]
      · simp [labelsOf, hj, ih]

theorem ordered_append (n : Nat) (xs ys : List (Label ℓ)) :
    Ordered n (xs ++ ys) ↔ Ordered n xs ∧ Ordered (n + joined xs) ys := by
  induction xs generalizing n with
  | nil => simp [Ordered, joined]
  | cons x xs ih =>
    cases x with
    | join =>
      have hcount : n + (joined xs + 1) = n + 1 + joined xs := by omega
      simp only [List.cons_append, Ordered, joined, ih, hcount]
    | act i label => simp only [List.cons_append, Ordered, joined, ih, and_assoc]

/-- A place that has not been taken has no steps. -/
theorem labelsOf_later {n i : Nat} {labels : List (Label ℓ)} (h : Ordered n labels)
    (hi : n + joined labels ≤ i) : labelsOf i labels = [] := by
  induction labels generalizing n with
  | nil => rfl
  | cons x labels ih =>
    cases x with
    | join =>
      simp only [joined] at hi
      exact ih h (by omega)
    | act j label =>
      obtain ⟨hj, hrest⟩ := h
      simp only [joined] at hi
      have hne : j ≠ i := by omega
      rw [labelsOf, if_neg hne]
      exact ih hrest hi

/-- Every component of the list is what its own steps have made of a fresh one. -/
structure Composed (Fresh : σ → Prop) (Step : σ → ℓ → σ → Prop) (labels : List (Label ℓ))
    (cs : List σ) : Prop where
  ordered : Ordered 0 labels
  count : cs.length = joined labels
  component : ∀ i c, cs[i]? = some c → ∃ start, Fresh start ∧ Run Step start (labelsOf i labels) c

theorem composed_join {labels : List (Label ℓ)} {cs : List σ} {c : σ}
    (h : Composed Fresh Step labels cs) (hfresh : Fresh c) :
    Composed Fresh Step (labels ++ [.join]) (cs ++ [c]) := by
  constructor
  · rw [ordered_append]
    exact ⟨h.ordered, trivial⟩
  · rw [joined_append, List.length_append, h.count]
    rfl
  · intro i d hd
    have hlabels : labelsOf i (labels ++ [.join]) = labelsOf i labels := by
      rw [labelsOf_append]
      exact List.append_nil _
    rw [hlabels]
    by_cases hi : i < cs.length
    · rw [List.getElem?_append_left hi] at hd
      exact h.component i d hd
    · have hlast : i = cs.length ∧ c = d := by
        rw [List.getElem?_append_right (by omega), List.getElem?_singleton] at hd
        split at hd
        · exact ⟨by omega, Option.some.inj hd⟩
        · cases hd
      obtain ⟨rfl, rfl⟩ := hlast
      rw [labelsOf_later h.ordered (by rw [h.count]; omega)]
      exact ⟨c, hfresh, .nil⟩

theorem composed_act {labels : List (Label ℓ)} {cs : List σ} {i : Nat} {c c' : σ} {label : ℓ}
    (h : Composed Fresh Step labels cs) (hfound : cs[i]? = some c) (hstep : Step c label c') :
    Composed Fresh Step (labels ++ [.act i label]) (cs.set i c') := by
  have hi : i < cs.length := (List.getElem?_eq_some_iff.mp hfound).1
  constructor
  · rw [ordered_append, Nat.zero_add, ← h.count]
    exact ⟨h.ordered, hi, trivial⟩
  · rw [joined_append, List.length_set, h.count]
    rfl
  · intro j d hd
    rw [labelsOf_append]
    by_cases hj : i = j
    · subst hj
      rw [List.getElem?_set_self hi] at hd
      cases hd
      obtain ⟨start, hfresh, hrun⟩ := h.component i c hfound
      refine ⟨start, hfresh, ?_⟩
      simpa [labelsOf] using hrun.snoc hstep
    · rw [List.getElem?_set_ne hj] at hd
      simpa [labelsOf, hj] using h.component j d hd

/-- The system at the end of a run is composed. -/
theorem composed_of_run {labels : List (Label ℓ)} {cs : List σ}
    (h : Run (SystemStep Fresh Step) [] labels cs) : Composed Fresh Step labels cs := by
  induction h with
  | nil => exact ⟨trivial, rfl, by simp⟩
  | snoc _ hlast ih =>
    cases hlast with
    | join fresh => exact composed_join ih fresh
    | act found step => exact composed_act ih found step

/-- The component that joined last is fresh, and the others are as before. -/
theorem composed_before_join {labels : List (Label ℓ)} {cs : List σ} {c : σ}
    (h : Composed Fresh Step (labels ++ [.join]) (cs ++ [c])) :
    Fresh c ∧ Composed Fresh Step labels cs := by
  obtain ⟨hordered, hcount, hcomponent⟩ := h
  rw [ordered_append] at hordered
  rw [joined_append, List.length_append] at hcount
  have hlength : cs.length = joined labels := by simpa [joined] using hcount
  have hlabels : ∀ i, labelsOf i (labels ++ [.join]) = labelsOf i labels := by
    intro i
    rw [labelsOf_append]
    exact List.append_nil _
  constructor
  · obtain ⟨start, hfresh, hrun⟩ := hcomponent cs.length c (by simp)
    rw [hlabels, labelsOf_later hordered.1 (by omega)] at hrun
    rw [hrun.of_nil]
    exact hfresh
  · refine ⟨hordered.1, hlength, ?_⟩
    intro i d hd
    have hi : i < cs.length := (List.getElem?_eq_some_iff.mp hd).1
    rw [← hlabels i]
    apply hcomponent
    rwa [List.getElem?_append_left hi]

/-- Before its last step a component was at the start of that step. -/
theorem composed_before_act {labels : List (Label ℓ)} {cs : List σ} {i : Nat} {label : ℓ}
    (h : Composed Fresh Step (labels ++ [.act i label]) cs) :
    ∃ mid c, cs[i]? = some c ∧ Step mid label c ∧ Composed Fresh Step labels (cs.set i mid) := by
  obtain ⟨hordered, hcount, hcomponent⟩ := h
  rw [ordered_append, Nat.zero_add] at hordered
  rw [joined_append] at hcount
  have hlength : cs.length = joined labels := hcount
  have hi : i < cs.length := by
    rw [hlength]
    exact hordered.2.1
  have hown : labelsOf i (labels ++ [.act i label]) = labelsOf i labels ++ [label] := by
    rw [labelsOf_append]
    simp [labelsOf]
  obtain ⟨start, hfresh, hrun⟩ := hcomponent i cs[i] (List.getElem?_eq_getElem hi)
  rw [hown] at hrun
  obtain ⟨mid, hmid, hstep⟩ := hrun.of_snoc
  refine ⟨mid, cs[i], List.getElem?_eq_getElem hi, hstep, hordered.1, ?_, ?_⟩
  · rw [List.length_set, hlength]
  · intro j d hd
    by_cases hj : i = j
    · subst hj
      rw [List.getElem?_set_self hi] at hd
      cases hd
      exact ⟨start, hfresh, hmid⟩
    · rw [List.getElem?_set_ne hj] at hd
      obtain ⟨start', hfresh', hrun'⟩ := hcomponent j d hd
      refine ⟨start', hfresh', ?_⟩
      rw [labelsOf_append] at hrun'
      simpa [labelsOf, hj] using hrun'

/-- Runs of components can be interleaved in every order. -/
theorem run_of_composed {labels : List (Label ℓ)} {cs : List σ}
    (h : Composed Fresh Step labels cs) : Run (SystemStep Fresh Step) [] labels cs := by
  induction labels using List.reverseRecOn generalizing cs with
  | nil =>
    have hcs : cs = [] := List.eq_nil_of_length_eq_zero h.count
    rw [hcs]
    exact .nil
  | append_singleton labels x ih =>
    cases x with
    | join =>
      rcases List.eq_nil_or_concat cs with rfl | ⟨front, c, hcs⟩
      · have hcount := h.count
        rw [joined_append] at hcount
        simp [joined] at hcount
      · rw [List.concat_eq_append] at hcs
        subst hcs
        obtain ⟨hfresh, hbefore⟩ := composed_before_join h
        exact (ih hbefore).snoc (.join hfresh)
    | act i label =>
      obtain ⟨mid, c, hfound, hstep, hbefore⟩ := composed_before_act h
      have hi : i < cs.length := (List.getElem?_eq_some_iff.mp hfound).1
      have hmid : (cs.set i mid)[i]? = some mid := List.getElem?_set_self hi
      have hback : (cs.set i mid).set i c = cs := by
        rw [List.set_set, ← (List.getElem?_eq_some_iff.mp hfound).2, List.set_getElem_self]
      have hlast := (ih hbefore).snoc (.act hmid hstep)
      rwa [hback] at hlast

/-- The runs of the system are the interleavings of the runs of its components. -/
theorem run_iff {labels : List (Label ℓ)} {cs : List σ} :
    Run (SystemStep Fresh Step) [] labels cs ↔ Composed Fresh Step labels cs :=
  ⟨composed_of_run, run_of_composed⟩

end Interleaving
