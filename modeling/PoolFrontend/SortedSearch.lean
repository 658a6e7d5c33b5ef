import Mathlib.Data.List.Sort
import PoolFrontend.Server

/-!
# Sorting and searching by name

A sort by name may bring elements of one name into any order. Binary search on the list it
gives finds the first element of the name.
-/
namespace SortedSearch

open Server

section Search

variable {α : Type} (below : α → Bool) (xs : List α)

/-- What lies in front of `i` is below, and what lies from `j` on is not. -/
structure Parts (i j : Nat) : Prop where
  front : ∀ k x, k < i → xs[k]? = some x → below x = true
  back : ∀ k x, j ≤ k → xs[k]? = some x → below x = false

/-- In front of an element that is below every element is. -/
def Partitioned : Prop :=
  ∀ (i j : Nat) (x y : α), i ≤ j → xs[i]? = some x → xs[j]? = some y → below y = true →
    below x = true

variable {below xs}

/-- Each halving keeps the parts, and the fuel never runs out before the interval is empty. -/
theorem lowerBoundFrom_parts (h : Partitioned below xs) (fuel first count : Nat)
    (hfuel : count ≤ fuel) (hbound : first + count ≤ xs.length)
    (hparts : Parts below xs first (first + count)) :
    Parts below xs (lowerBoundFrom below xs fuel first count)
      (lowerBoundFrom below xs fuel first count) := by
  induction fuel generalizing first count with
  | zero =>
    have hzero : count = 0 := by omega
    rw [hzero] at hparts
    exact hparts
  | succ fuel ih =>
    rw [lowerBoundFrom]
    by_cases hzero : count = 0
    · rw [if_pos hzero]
      rw [hzero] at hparts
      exact hparts
    · rw [if_neg hzero]
      have hmid : first + count / 2 < xs.length := by omega
      rw [List.getElem?_eq_getElem hmid]
      have hget : xs[first + count / 2]? = some xs[first + count / 2] :=
        List.getElem?_eq_getElem hmid
      by_cases hbelow : below xs[first + count / 2] = true
      · simp only [hbelow, if_true]
        refine ih _ _ (by omega) (by omega) ⟨fun k x hk hx => ?_, fun k x hk hx => ?_⟩
        · exact h k _ x _ (by omega) hx hget hbelow
        · exact hparts.back k x (by omega) hx
      · simp only [hbelow]
        refine ih _ _ (by omega) (by omega) ⟨fun k x hk hx => ?_, fun k x hk hx => ?_⟩
        · exact hparts.front k x hk hx
        · by_contra hnot
          have htrue : below x = true := by simpa using hnot
          exact hbelow (h _ k _ x hk hget hx htrue)

theorem lowerBound_parts (h : Partitioned below xs) :
    Parts below xs (lowerBound below xs) (lowerBound below xs) := by
  refine lowerBoundFrom_parts h _ 0 _ (Nat.le_refl _) (by omega)
    ⟨fun k x hk _ => ?_, fun k x hk hx => ?_⟩
  · omega
  · have hlt := (List.getElem?_eq_some_iff.mp hx).1
    omega

/-- The first element that is not below is at the bound. -/
theorem find_parts {i : Nat} (h : Parts below xs i i) : xs.find? (fun x => !below x) = xs[i]? := by
  induction xs generalizing i with
  | nil => simp
  | cons x rest ih =>
    cases i with
    | zero =>
      have hx := h.back 0 x (Nat.le_refl _) rfl
      simp [hx]
    | succ i =>
      have hx := h.front 0 x (Nat.succ_pos i) rfl
      have hrest : Parts below rest i i :=
        ⟨fun k y hk hy => h.front (k + 1) y (by omega) hy,
          fun k y hk hy => h.back (k + 1) y (by omega) hy⟩
      simp [hx, ih hrest]

end Search

section Names

variable {α : Type} {nameOf : α → String}

theorem partitioned_names {xs : List α} (hsorted : xs.Pairwise fun x y => nameOf x ≤ nameOf y)
    (name : String) : Partitioned (fun x => decide (nameOf x < name)) xs := by
  intro i j x y hij hx hy hbelow
  have hlt : nameOf y < name := of_decide_eq_true hbelow
  cases Nat.eq_or_lt_of_le hij with
  | inl heq =>
    rw [heq, hy] at hx
    cases hx
    exact hbelow
  | inr hlt' =>
    obtain ⟨hi, hxi⟩ := List.getElem?_eq_some_iff.mp hx
    obtain ⟨hj, hyj⟩ := List.getElem?_eq_some_iff.mp hy
    have hle := List.pairwise_iff_getElem.mp hsorted i j hi hj hlt'
    rw [hxi, hyj] at hle
    exact decide_eq_true (Std.lt_of_le_of_lt hle hlt)

/-- On a sorted list the search finds the first element of the name. -/
theorem findByName_find {xs : List α} (hsorted : xs.Pairwise fun x y => nameOf x ≤ nameOf y)
    (name : String) : findByName nameOf xs name = xs.find? fun x => nameOf x = name := by
  unfold findByName
  rw [← find_parts (lowerBound_parts (partitioned_names hsorted name))]
  induction xs with
  | nil => rfl
  | cons x rest ih =>
    rw [List.find?_cons, List.find?_cons]
    by_cases hlt : nameOf x < name
    · have hne : nameOf x ≠ name := fun heq => Std.lt_irrefl (heq ▸ hlt)
      simp only [decide_eq_true hlt, decide_eq_false hne, Bool.not_true]
      exact ih hsorted.of_cons
    · simp only [decide_eq_false hlt, Bool.not_false]
      by_cases heq : nameOf x = name
      · simp only [heq, ne_eq, not_true_eq_false, if_false, decide_true]
      · have hnone : rest.find? (fun y => nameOf y = name) = none := by
          rw [List.find?_eq_none]
          intro y hy hname
          have hle := List.rel_of_pairwise_cons hsorted hy
          rw [of_decide_eq_true hname] at hle
          exact heq (Std.le_antisymm hle (Std.not_lt.mp hlt))
        simp only [heq, ne_eq, not_false_eq_true, if_true, decide_false, hnone]

end Names

/-- `std::sort` by name: the places of the elements in their new order. It is given the names
only, through the comparison, and is not stable. -/
structure NameSort where
  order : List String → List Nat
  perm : ∀ names, (order names).Perm (List.range names.length)
  sorted : ∀ names : List String,
    ((order names).filterMap fun i => names[i]?).Pairwise fun l r => l ≤ r

namespace NameSort

variable {α : Type} (sort : NameSort)

def apply (nameOf : α → String) (xs : List α) : List α :=
  (sort.order (xs.map nameOf)).filterMap fun i => xs[i]?

/-- The elements at all places. -/
theorem filterMap_range (xs : List α) :
    (List.range xs.length).filterMap (fun i => xs[i]?) = xs := by
  induction xs with
  | nil => rfl
  | cons x xs ih =>
    rw [List.length_cons, List.range_succ_eq_map, List.filterMap_cons, List.filterMap_map]
    exact congrArg (List.cons x) ih

theorem apply_perm (nameOf : α → String) (xs : List α) : (sort.apply nameOf xs).Perm xs := by
  have hperm := (sort.perm (xs.map nameOf)).filterMap fun i => xs[i]?
  rw [List.length_map, filterMap_range] at hperm
  exact hperm

/-- The order depends on the names only. -/
theorem apply_map {β : Type} (nameOf : β → String) (f : α → β) (xs : List α) :
    (sort.apply (nameOf ∘ f) xs).map f = sort.apply nameOf (xs.map f) := by
  simp [apply, List.map_filterMap, List.map_map]

theorem apply_sorted (nameOf : α → String) (xs : List α) :
    (sort.apply nameOf xs).Pairwise fun l r => nameOf l ≤ nameOf r := by
  have hnames := sort.sorted (xs.map nameOf)
  simp only [List.getElem?_map, ← List.map_filterMap, List.pairwise_map] at hnames
  exact hnames

end NameSort

/-- The sort that puts the first of one name first. -/
def insertionNameSort : NameSort where
  order names :=
    (List.range names.length).insertionSort fun i j => (names[i]?).getD "" ≤ (names[j]?).getD ""
  perm names := List.perm_insertionSort _ _
  sorted names := by
    have htotal : Std.Total fun i j : Nat => (names[i]?).getD "" ≤ (names[j]?).getD "" :=
      ⟨fun _ _ => String.le_total _ _⟩
    have htrans : IsTrans Nat fun i j => (names[i]?).getD "" ≤ (names[j]?).getD "" :=
      ⟨fun _ _ _ => String.le_trans⟩
    have hplaces := List.pairwise_insertionSort
      (fun i j : Nat => (names[i]?).getD "" ≤ (names[j]?).getD "") (List.range names.length)
    rw [List.pairwise_filterMap]
    refine hplaces.imp fun {i j} hle l hl r hr => ?_
    rw [hl, hr] at hle
    exact hle

end SortedSearch
