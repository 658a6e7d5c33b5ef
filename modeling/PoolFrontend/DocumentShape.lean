import PoolFrontend.Json

/-!
# What a reader looks at

A shape lists the members a reader looks at, level by level. Documents that agree on it may
differ in the order of their members, in later members of a name and in all other members.
-/
namespace DocumentShape

open Json

inductive Shape where
  | whole : Shape
  | array : Shape → Shape
  | object : List (String × Shape) → Shape

/-- Members that are looked at as a whole. -/
def wholes (names : List String) : List (String × Shape) := names.map fun name => (name, .whole)

theorem mem_wholes {names : List String} {name : String} (h : name ∈ names) :
    (name, .whole) ∈ wholes names :=
  List.mem_map.mpr ⟨name, h, rfl⟩

/-- The same value where the reader looks. -/
inductive Agree : Shape → Value → Value → Prop
  | same (shape : Shape) (value : Value) : Agree shape value value
  | array {shape : Shape} {xs ys : List Value} (length : xs.length = ys.length)
      (elements : ∀ (i : Nat) (x y : Value), xs[i]? = some x → ys[i]? = some y → Agree shape x y) :
      Agree (.array shape) (.array xs) (.array ys)
  | object {fields : List (String × Shape)} {ms ns : Members}
      (present : ∀ name shape, (name, shape) ∈ fields →
        (ms.lookup name).isSome = (ns.lookup name).isSome)
      (members : ∀ name shape x y, (name, shape) ∈ fields → ms.lookup name = some x →
        ns.lookup name = some y → Agree shape x y) :
      Agree (.object fields) (.object ms) (.object ns)

theorem Agree.trans {shape : Shape} {u v w : Value} (h : Agree shape u v) (h' : Agree shape v w) :
    Agree shape u w := by
  induction h generalizing w with
  | same => exact h'
  | @array shape xs ys length elements ih =>
    cases h' with
    | same => exact .array length elements
    | @array _ _ zs length' elements' =>
      apply Agree.array (length.trans length')
      intro i x z hx hz
      have hi : i < ys.length := by
        rw [length']
        exact (List.getElem?_eq_some_iff.mp hz).1
      have hy := List.getElem?_eq_getElem hi
      exact ih i x ys[i] hx hy (elements' i ys[i] z hy hz)
  | @object fields ms ns present members ih =>
    cases h' with
    | same => exact .object present members
    | @object _ _ ks present' members' =>
      apply Agree.object
      · intro name shape hmem
        exact (present name shape hmem).trans (present' name shape hmem)
      · intro name shape x z hmem hx hz
        have hsome : (ns.lookup name).isSome = true := by
          rw [← present name shape hmem, hx, Option.isSome_some]
        obtain ⟨y, hy⟩ := Option.isSome_iff_exists.mp hsome
        exact ih name shape x y hmem hx hy (members' name shape y z hmem hy hz)

theorem Agree.whole {v w : Value} (h : Agree .whole v w) : v = w := by
  cases h with
  | same => rfl

theorem Agree.isArray {shape : Shape} {v w : Value} (h : Agree shape v w) :
    v.isArray = w.isArray := by
  cases h <;> rfl

theorem Agree.isObject {shape : Shape} {v w : Value} (h : Agree shape v w) :
    v.isObject = w.isObject := by
  cases h <;> rfl

/-- The elements of arrays that agree, one by one. -/
theorem Agree.elements {shape : Shape} {v w : Value} (h : Agree (.array shape) v w) :
    v = w ∨ ∃ xs ys, v = .array xs ∧ w = .array ys ∧ List.Forall₂ (Agree shape) xs ys := by
  cases h with
  | same => exact .inl rfl
  | @array _ xs ys length elements =>
    right
    refine ⟨xs, ys, rfl, rfl, List.forall₂_iff_get.mpr ⟨length, ?_⟩⟩
    intro i hi hj
    exact elements i _ _ (List.getElem?_eq_getElem hi) (List.getElem?_eq_getElem hj)

section Members

variable {fields : List (String × Shape)} {v w : Value} {name : String} {shape : Shape}

theorem Agree.hasMember (h : Agree (.object fields) v w) (hmem : (name, shape) ∈ fields) :
    v.hasMember name = w.hasMember name := by
  cases h with
  | same => rfl
  | object present members => exact congrArg some (present name shape hmem)

/-- A member is in both or in none. -/
theorem Agree.member (h : Agree (.object fields) v w) (hmem : (name, shape) ∈ fields) :
    v.member name = none ∧ w.member name = none ∨
      ∃ x y, v.member name = some x ∧ w.member name = some y ∧ Agree shape x y := by
  cases h with
  | same =>
    cases hv : v.member name with
    | none => exact .inl ⟨rfl, rfl⟩
    | some x => exact .inr ⟨x, x, rfl, rfl, .same shape x⟩
  | @object _ ms ns present members =>
    have hpresent := present name shape hmem
    simp only [Value.member_object]
    cases hms : ms.lookup name with
    | none =>
      rw [hms, Option.isSome_none] at hpresent
      exact .inl ⟨rfl, Option.isNone_iff_eq_none.mp (Option.isSome_eq_false_iff.mp hpresent.symm)⟩
    | some x =>
      rw [hms, Option.isSome_some] at hpresent
      obtain ⟨y, hy⟩ := Option.isSome_iff_exists.mp hpresent.symm
      exact .inr ⟨x, y, rfl, hy, members name shape x y hmem hms hy⟩

/-- A member that is looked at as a whole is the same. -/
theorem Agree.member_whole (h : Agree (.object fields) v w) (hmem : (name, .whole) ∈ fields) :
    v.member name = w.member name := by
  obtain ⟨hv, hw⟩ | ⟨x, y, hv, hw, hsame⟩ := h.member hmem
  · rw [hv, hw]
  · rw [hv, hw, hsame.whole]

theorem Agree.memberIs_whole (h : Agree (.object fields) v w) (hmem : (name, .whole) ∈ fields)
    (is : Value → Bool) : v.memberIs is name = w.memberIs is name := by
  simp only [Value.memberIs, h.hasMember hmem, h.member_whole hmem]

/-- A test that only tells the kinds of values apart. -/
theorem Agree.memberIs (h : Agree (.object fields) v w) (hmem : (name, shape) ∈ fields)
    {is : Value → Bool} (his : ∀ x y, Agree shape x y → is x = is y) :
    v.memberIs is name = w.memberIs is name := by
  unfold Value.memberIs
  rw [h.hasMember hmem]
  obtain ⟨hv, hw⟩ | ⟨x, y, hv, hw, hagree⟩ := h.member hmem
  · rw [hv, hw]
  · rw [hv, hw]
    simp only [Option.bind_eq_bind, Option.bind_some, his x y hagree]

/-- What follows the read of a member sees members that agree. -/
theorem Agree.member_bind {σ α : Type} (h : Agree (.object fields) v w)
    (hmem : (name, shape) ∈ fields) {k l : Value → StateT σ Option α}
    (hk : ∀ x y, Agree shape x y → k x = l y) :
    liftM (v.member name) >>= k = liftM (w.member name) >>= l := by
  obtain ⟨hv, hw⟩ | ⟨x, y, hv, hw, hagree⟩ := h.member hmem
  · rw [hv, hw]
    rfl
  · rw [hv, hw]
    exact hk x y hagree

/-- What follows the read of an array sees elements that agree. -/
theorem Agree.member_array {σ α : Type} (h : Agree (.object fields) v w)
    (hmem : (name, .array shape) ∈ fields) {k l : List Value → StateT σ Option α}
    (hk : ∀ xs ys, List.Forall₂ (Agree shape) xs ys → k xs = l ys) :
    (liftM (v.member name) >>= fun field => liftM field.getArray >>= k) =
      liftM (w.member name) >>= fun field => liftM field.getArray >>= l := by
  apply h.member_bind hmem
  intro x y hagree
  obtain rfl | ⟨xs, ys, rfl, rfl, hall⟩ := hagree.elements
  · cases x with
    | array xs => exact hk xs xs (List.forall₂_same.mpr fun x _ => .same shape x)
    | _ => rfl
  · exact hk xs ys hall

/-- Members that are found at the same values. -/
theorem agree_lookup {ms ns : Members}
    (h : ∀ name shape, (name, shape) ∈ fields → ms.lookup name = ns.lookup name) :
    Agree (.object fields) (.object ms) (.object ns) := by
  apply Agree.object
  · intro name shape hmem
    rw [h name shape hmem]
  · intro name shape x y hmem hx hy
    rw [h name shape hmem] at hx
    cases hx.symm.trans hy
    exact .same shape x

/-- Members of other names, and later ones of a name that is there, may follow. -/
theorem agree_more {ms more : Members} (h : ∀ name shape, (name, shape) ∈ fields →
    (ms.lookup name).isSome = true ∨ more.lookup name = none) :
    Agree (.object fields) (.object ms) (.object (ms ++ more)) := by
  apply agree_lookup
  intro name shape hmem
  rw [List.lookup_append]
  cases h name shape hmem with
  | inl hsome =>
    obtain ⟨x, hx⟩ := Option.isSome_iff_exists.mp hsome
    rw [hx, Option.some_or]
  | inr hnone => rw [hnone, Option.or_none]

theorem lookup_perm {ms ns : Members} (hperm : ms.Perm ns) (hnames : (ms.map Prod.fst).Nodup)
    (name : String) : ms.lookup name = ns.lookup name := by
  induction hperm with
  | nil => rfl
  | cons m _ ih =>
    rw [List.map_cons, List.nodup_cons] at hnames
    obtain ⟨key, value⟩ := m
    rw [List.lookup_cons, List.lookup_cons, ih hnames.2]
  | swap m n ms =>
    rw [List.map_cons, List.map_cons, List.nodup_cons] at hnames
    obtain ⟨key, value⟩ := m
    obtain ⟨other, content⟩ := n
    have hother : other ≠ key := by
      intro heq
      exact hnames.1 (by simp [heq])
    simp only [List.lookup_cons]
    cases hkey : name == key with
    | false => rfl
    | true =>
      rw [beq_eq_false_iff_ne.mpr (by rw [beq_iff_eq.mp hkey]; exact hother.symm)]
  | trans hfirst _ ihfirst ihsecond =>
    rw [ihfirst hnames, ihsecond ((hfirst.map Prod.fst).nodup_iff.mp hnames)]

/-- Members with different names may stand in any order. -/
theorem agree_perm {ms ns : Members} (hperm : ms.Perm ns) (hnames : (ms.map Prod.fst).Nodup) :
    Agree (.object fields) (.object ms) (.object ns) :=
  agree_lookup fun name _ _ => lookup_perm hperm hnames name

end Members

end DocumentShape
