import PoolFrontend.Getopt

/-!
# The names of long options

A name may be abbreviated. The loop over the table keeps the first match and compares the others
with it, until it meets the name itself.
-/
namespace Getopt

variable (longopts : List LongOption)

/-- The entries differ in their names at most. -/
structure SameKind (p q : LongOption) : Prop where
  hasArg : q.hasArg = p.hasArg
  flag : q.flag = p.flag
  val : q.val = p.val

instance (p q : LongOption) : Decidable (SameKind p q) :=
  decidable_of_iff (q.hasArg = p.hasArg ∧ q.flag = p.flag ∧ q.val = p.val)
    ⟨fun ⟨hasArg, flag, val⟩ => ⟨hasArg, flag, val⟩, fun ⟨hasArg, flag, val⟩ => ⟨hasArg, flag, val⟩⟩

/-- A key stands for the first entry of that name. Where there is none, it stands for the first
entry whose name it begins, if all others that it begins are of the same kind. -/
inductive StandsFor (key : Arg) (index : Nat) (p : LongOption) : Prop
  | name (before after : List LongOption) (table : longopts = before ++ p :: after)
      (place : index = before.length) (same : p.name = key) (first : ∀ q ∈ before, q.name ≠ key)
  | abbreviation (before after : List LongOption) (table : longopts = before ++ p :: after)
      (place : index = before.length) (begins : key <+: p.name)
      (noName : ∀ q ∈ longopts, q.name ≠ key) (first : ∀ q ∈ before, ¬ key <+: q.name)
      (agree : ∀ q ∈ after, key <+: q.name → SameKind p q)

/-- What an entry of another name does to the search. -/
def look (key : Arg) (index : Nat) (q : LongOption) (s : Search) : Search :=
  if key <+: q.name then
    match s.pfound with
    | none => { s with pfound := some (index, q) }
    | some (_, p) => if SameKind p q then s else { s with ambiguous := true }
  else s

section Names

variable {key : Arg} {longopts : List LongOption}

theorem search_other {q : LongOption} (hname : q.name ≠ key) (rest : List LongOption) (index : Nat)
    (s : Search) :
    search key (q :: rest) index s = search key rest (index + 1) (look key index q s) := by
  by_cases hbegins : key <+: q.name
  · have hlength : ¬ key.length = q.name.length :=
      fun h => hname (hbegins.eq_of_length h).symm
    rw [search, if_pos (List.isPrefixOf_iff_prefix.mpr hbegins), if_neg hlength, look,
      if_pos hbegins]
    cases s.pfound with
    | none => rfl
    | some entry =>
      obtain ⟨i, p⟩ := entry
      by_cases hsame : SameKind p q
      · simp [hsame, hsame.hasArg, hsame.flag, hsame.val]
      · have hdiffer : p.hasArg ≠ q.hasArg ∨ p.flag ≠ q.flag ∨ p.val ≠ q.val := by
          by_contra hnot
          simp only [ne_eq, not_or, not_not] at hnot
          exact hsame ⟨hnot.1.symm, hnot.2.1.symm, hnot.2.2.symm⟩
        simp only [if_pos hdiffer, if_neg hsame]
  · rw [search, if_neg (by simpa using hbegins), look, if_neg hbegins]

/-- The loop ends at the name. -/
theorem search_name {before after : List LongOption} {p : LongOption} (hname : p.name = key)
    (hfirst : ∀ q ∈ before, q.name ≠ key) (index : Nat) (s : Search) :
    ∃ s' : Search, search key (before ++ p :: after) index s =
      { s' with pfound := some (index + before.length, p), exact := true } := by
  induction before generalizing index s with
  | nil => exact ⟨s, by simp [search, hname]⟩
  | cons q before ih =>
    obtain ⟨s', hs'⟩ := ih (fun r hr => hfirst r (List.mem_cons_of_mem _ hr)) (index + 1)
      (look key index q s)
    refine ⟨s', ?_⟩
    rw [List.cons_append, search_other (hfirst q List.mem_cons_self), hs', List.length_cons,
      Nat.add_right_comm, Nat.add_assoc index]

/-- Entries that the key does not begin are passed. -/
theorem search_pass {before : List LongOption} (hfirst : ∀ q ∈ before, ¬ key <+: q.name)
    (rest : List LongOption) (index : Nat) (s : Search) :
    search key (before ++ rest) index s = search key rest (index + before.length) s := by
  induction before generalizing index with
  | nil => rfl
  | cons q before ih =>
    have hq := hfirst q List.mem_cons_self
    have hname : q.name ≠ key := by
      rintro rfl
      exact hq (List.prefix_refl _)
    rw [List.cons_append, search_other hname, look, if_neg hq,
      ih fun r hr => hfirst r (List.mem_cons_of_mem _ hr), List.length_cons, Nat.add_assoc,
      Nat.add_comm 1]

/-- After the first match the others are compared with it. -/
theorem search_rest {rest : List LongOption} (hnoName : ∀ q ∈ rest, q.name ≠ key) {i index : Nat}
    {p : LongOption} {s : Search} (hfound : s.pfound = some (i, p)) (hexact : s.exact = false) :
    (search key rest index s).pfound = some (i, p) ∧ (search key rest index s).exact = false ∧
      ((search key rest index s).ambiguous = true ↔ s.ambiguous = true ∨
        ∃ q ∈ rest, key <+: q.name ∧ ¬ SameKind p q) := by
  induction rest generalizing index s with
  | nil => simp [search, hfound, hexact]
  | cons q rest ih =>
    have hlook : (look key index q s).pfound = some (i, p) ∧
        (look key index q s).exact = false ∧
        ((look key index q s).ambiguous = true ↔ s.ambiguous = true ∨
          key <+: q.name ∧ ¬ SameKind p q) := by
      simp only [look, hfound]
      by_cases hbegins : key <+: q.name
      · by_cases hsame : SameKind p q
        · simp [hbegins, hsame, hfound, hexact]
        · simp only [if_pos hbegins, if_neg hsame, hexact]
          simp [hbegins, hsame]
      · simp [hbegins, hfound, hexact]
    obtain ⟨hfound', hexact', hambiguous'⟩ := hlook
    obtain ⟨hlast, hlastExact, hlastAmbiguous⟩ :=
      ih (fun r hr => hnoName r (List.mem_cons_of_mem _ hr)) hfound' hexact'
    rw [search_other (hnoName q List.mem_cons_self)]
    refine ⟨hlast, hlastExact, ?_⟩
    rw [hlastAmbiguous, hambiguous', or_assoc]
    simp

theorem resolve_name {before after : List LongOption} {p : LongOption} (hname : p.name = key)
    (hfirst : ∀ q ∈ before, q.name ≠ key) :
    resolve (before ++ p :: after) key = some (before.length, p) := by
  obtain ⟨s, hs⟩ : ∃ s : Search, search key (before ++ p :: after) 0 {} =
      { s with pfound := some (0 + before.length, p), exact := true } :=
    search_name hname hfirst 0 {}
  rw [resolve, hs]
  simp

/-- The first entry that the key begins is found unless another one differs from it. -/
theorem resolve_begins {before after : List LongOption} {p : LongOption}
    (hnoName : ∀ q ∈ before ++ p :: after, q.name ≠ key) (hbegins : key <+: p.name)
    (hfirst : ∀ q ∈ before, ¬ key <+: q.name) :
    resolve (before ++ p :: after) key =
      if ∃ q ∈ after, key <+: q.name ∧ ¬ SameKind p q then none
      else some (before.length, p) := by
  have hname : p.name ≠ key := hnoName p (by simp)
  have hsearch : search key (before ++ p :: after) 0 {} =
      search key after (before.length + 1) { pfound := some (before.length, p) } := by
    rw [search_pass hfirst, search_other hname, Nat.zero_add, look, if_pos hbegins]
  have hafter : ∀ q ∈ after, q.name ≠ key := fun q hq => hnoName q (by simp [hq])
  obtain ⟨hfound, hexact, hambiguous⟩ := @search_rest key after hafter before.length
    (before.length + 1) p { pfound := some (before.length, p) } rfl rfl
  rw [resolve, hsearch]
  simp only [hexact, hfound]
  split
  · rename_i hdiffer
    rw [if_pos]
    simpa using hambiguous.mp hdiffer.1
  · rename_i hsame
    rw [if_neg]
    intro hdiffer
    exact hsame ⟨hambiguous.mpr (.inr hdiffer), by simp⟩

theorem resolve_nothing (hnone : ∀ q ∈ longopts, ¬ key <+: q.name) :
    resolve longopts key = none := by
  have hpass := search_pass hnone [] 0 {}
  rw [List.append_nil] at hpass
  rw [resolve, hpass]
  rfl

end Names

theorem resolve_stands {key : Arg} {index : Nat} {p : LongOption}
    (h : resolve longopts key = some (index, p)) : StandsFor longopts key index p := by
  cases hname : longopts.find? (fun q => q.name = key) with
  | some q =>
    obtain ⟨hq, before, after, htable, hfirst⟩ := List.find?_eq_some_iff_append.mp hname
    have hqname : q.name = key := by simpa using hq
    have hbefore : ∀ r ∈ before, r.name ≠ key := by simpa using hfirst
    rw [htable, resolve_name hqname hbefore] at h
    cases h
    exact .name before after htable rfl hqname hbefore
  | none =>
    have hnoName : ∀ q ∈ longopts, q.name ≠ key := by simpa using List.find?_eq_none.mp hname
    cases hbegins : longopts.find? (fun q => key.isPrefixOf q.name) with
    | some q =>
      obtain ⟨hq, before, after, htable, hfirst⟩ := List.find?_eq_some_iff_append.mp hbegins
      have hqbegins : key <+: q.name := List.isPrefixOf_iff_prefix.mp hq
      have hbefore : ∀ r ∈ before, ¬ key <+: r.name := by
        intro r hr hprefix
        have hnot := hfirst r hr
        rw [List.isPrefixOf_iff_prefix.mpr hprefix] at hnot
        cases hnot
      rw [htable, resolve_begins (htable ▸ hnoName) hqbegins hbefore] at h
      split at h
      · cases h
      · rename_i hsame
        cases h
        refine .abbreviation before after htable rfl hqbegins hnoName hbefore ?_
        intro r hr hprefix
        by_contra hdiffer
        exact hsame ⟨r, hr, hprefix, hdiffer⟩
    | none =>
      have hnone : ∀ q ∈ longopts, ¬ key <+: q.name := by
        intro q hq hprefix
        have hnot := List.find?_eq_none.mp hbegins q hq
        exact hnot (List.isPrefixOf_iff_prefix.mpr hprefix)
      rw [resolve_nothing hnone] at h
      cases h

theorem stands_resolve {key : Arg} {index : Nat} {p : LongOption}
    (h : StandsFor longopts key index p) : resolve longopts key = some (index, p) := by
  cases h with
  | name before after table place same first => rw [table, place, resolve_name same first]
  | abbreviation before after table place begins noName first agree =>
    rw [table, place, resolve_begins (table ▸ noName) begins first, if_neg]
    rintro ⟨q, hq, hprefix, hdiffer⟩
    exact hdiffer (agree q hq hprefix)

/-- The table is searched for exactly that. -/
theorem resolve_iff {key : Arg} {index : Nat} {p : LongOption} :
    resolve longopts key = some (index, p) ↔ StandsFor longopts key index p := by
  constructor
  · exact resolve_stands longopts
  · exact stands_resolve longopts

end Getopt
