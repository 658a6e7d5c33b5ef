import Mathlib.Data.List.Basic

/-!
# Exchanging two adjacent segments in place

The shorter segment is swapped with the far end of the longer one, which puts it where it
belongs, and the loop goes on with what is left. Only swaps of two elements are made.
-/
namespace BlockExchange

variable {α : Type}

def swap (i j : Nat) (xs : List α) : List α :=
  match xs[i]?, xs[j]? with
  | some x, some y => (xs.set i y).set j x
  | _, _ => xs

/-- The `len` elements from `i` on are swapped with those from `j` on, one after the other. -/
def swapBlocks (i j : Nat) : (len : Nat) → List α → List α
  | 0, xs => xs
  | len + 1, xs => swapBlocks (i + 1) (j + 1) len (swap i j xs)

/-- The segments are from `bottom` to `middle` and from there to `top`. -/
def exchangeSegments (bottom middle top : Nat) (xs : List α) : List α :=
  if bottom < middle ∧ middle < top then
    if middle - bottom < top - middle then
      exchangeSegments bottom middle (top - (middle - bottom))
        (swapBlocks bottom (top - (middle - bottom)) (middle - bottom) xs)
    else
      exchangeSegments (bottom + (top - middle)) middle top
        (swapBlocks bottom middle (top - middle) xs)
  else xs
termination_by top - bottom

theorem swap_append (pre mid post : List α) (x y : α) :
    swap pre.length (pre.length + 1 + mid.length) (pre ++ x :: mid ++ y :: post) =
      pre ++ y :: mid ++ x :: post := by
  have hx : (pre ++ x :: mid ++ y :: post)[pre.length]? = some x := by simp
  have hy : (pre ++ x :: mid ++ y :: post)[pre.length + 1 + mid.length]? = some y := by
    have hlength : pre.length + 1 + mid.length = (pre ++ x :: mid).length := by
      simp [Nat.add_assoc, Nat.add_comm 1]
    rw [hlength, List.getElem?_append_right (Nat.le_refl _), Nat.sub_self]
    rfl
  have hlast : (pre ++ y :: mid ++ y :: post).set (pre.length + 1 + mid.length) x =
      pre ++ y :: mid ++ x :: post := by
    have hlength : pre.length + 1 + mid.length = (pre ++ y :: mid).length := by
      simp [Nat.add_assoc, Nat.add_comm 1]
    rw [hlength, List.set_append_right _ _ (Nat.le_refl _), Nat.sub_self]
    rfl
  have hfirst : (pre ++ x :: mid ++ y :: post).set pre.length y = pre ++ y :: mid ++ y :: post := by
    rw [List.append_assoc, List.set_append_right _ _ (Nat.le_refl _), Nat.sub_self,
      List.append_assoc]
    rfl
  rw [swap, hx, hy]
  show ((pre ++ x :: mid ++ y :: post).set pre.length y).set _ x = _
  rw [hfirst, hlast]

/-- Two blocks of one length change places; what is between them stays. -/
theorem swapBlocks_append (pre xs mid ys post : List α) (h : xs.length = ys.length) :
    swapBlocks pre.length (pre.length + xs.length + mid.length) xs.length
        (pre ++ xs ++ mid ++ ys ++ post) = pre ++ ys ++ mid ++ xs ++ post := by
  induction xs generalizing pre mid ys with
  | nil =>
    cases ys with
    | nil => simp [swapBlocks]
    | cons y ys => cases h
  | cons x xs ih =>
    cases ys with
    | nil => cases h
    | cons y ys =>
      have hswap : swap pre.length (pre.length + (xs.length + 1) + mid.length)
          (pre ++ x :: xs ++ mid ++ y :: ys ++ post) =
            (pre ++ [y]) ++ xs ++ (mid ++ [x]) ++ ys ++ post := by
        have hstep := swap_append pre (xs ++ mid) (ys ++ post) x y
        simpa [Nat.add_assoc, Nat.add_comm, Nat.add_left_comm] using hstep
      have hrest := ih (pre ++ [y]) (mid ++ [x]) ys (Nat.succ.inj h)
      simp only [List.length_append, List.length_cons, List.length_nil, Nat.zero_add] at hrest
      rw [List.length_cons, swapBlocks, hswap]
      have hplace : pre.length + (xs.length + 1) + mid.length + 1 =
          pre.length + 1 + xs.length + (mid.length + 1) := by omega
      rw [hplace, hrest]
      simp

theorem exchange_nil_left (bottom top : Nat) (xs : List α) :
    exchangeSegments bottom bottom top xs = xs := by
  rw [exchangeSegments, if_neg]
  omega

theorem exchange_nil_right (bottom middle : Nat) (xs : List α) :
    exchangeSegments bottom middle middle xs = xs := by
  rw [exchangeSegments, if_neg]
  omega

/-- The loop puts the second segment in front of the first, and changes nothing else. -/
theorem exchange_append (pre as bs post : List α) :
    exchangeSegments pre.length (pre.length + as.length) (pre.length + as.length + bs.length)
      (pre ++ as ++ bs ++ post) = pre ++ bs ++ as ++ post := by
  induction hsize : as.length + bs.length using Nat.strongRecOn
    generalizing pre as bs post with
  | ind n ih =>
    by_cases hempty : as = [] ∨ bs = []
    · rcases hempty with rfl | rfl
      · simpa using exchange_nil_left pre.length (pre.length + bs.length) (pre ++ bs ++ post)
      · simpa using exchange_nil_right pre.length (pre.length + as.length) (pre ++ as ++ post)
    obtain ⟨has, hbs⟩ := not_or.mp hempty
    have hapos : 0 < as.length := List.length_pos_of_ne_nil has
    have hbpos : 0 < bs.length := List.length_pos_of_ne_nil hbs
    rw [exchangeSegments, if_pos (by omega)]
    split
    · -- the first segment is swapped with the end of the second
      rename_i hshort
      obtain ⟨front, back, rfl, hback⟩ : ∃ front back, bs = front ++ back ∧
          as.length = back.length :=
        ⟨bs.take (bs.length - as.length), bs.drop (bs.length - as.length),
          (List.take_append_drop _ _).symm, by rw [List.length_drop]; omega⟩
      rw [List.length_append] at hsize hshort hbpos ⊢
      have hswap := swapBlocks_append pre as front back post hback
      have hrest := ih (back.length + front.length) (by omega) pre back front (as ++ post) rfl
      have htop : pre.length + as.length + (front.length + back.length) -
          (pre.length + as.length - pre.length) = pre.length + as.length + front.length := by
        omega
      have hlength : pre.length + as.length - pre.length = as.length := by omega
      rw [htop, hlength, ← List.append_assoc (pre ++ as), hswap, hback]
      simpa using hrest
    · -- the second segment is swapped with the start of the first
      rename_i hshort
      obtain ⟨front, back, rfl, hfront⟩ : ∃ front back, as = front ++ back ∧
          front.length = bs.length :=
        ⟨as.take bs.length, as.drop bs.length, (List.take_append_drop _ _).symm,
          by rw [List.length_take]; omega⟩
      rw [List.length_append] at hsize hshort hapos ⊢
      have hswap := swapBlocks_append pre front back bs post hfront
      have hrest := ih (back.length + front.length) (by omega) (pre ++ bs) back front post rfl
      have hlength : pre.length + (front.length + back.length) + bs.length -
          (pre.length + (front.length + back.length)) = front.length := by omega
      rw [hlength, ← List.append_assoc pre, ← Nat.add_assoc, hswap]
      simpa [hfront, Nat.add_comm, Nat.add_left_comm] using hrest

end BlockExchange
