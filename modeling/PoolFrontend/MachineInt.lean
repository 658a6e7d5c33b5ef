import Mathlib.Algebra.Ring.Int.Defs
import Mathlib.Algebra.Ring.Nat

/-!
# Machine arithmetic

Signed 64-bit values are integers; an operation whose result does not fit, or that
divides by zero, is undefined and yields `none`. Quotient and remainder truncate.
Unsigned values wrap.
-/
namespace MachineInt

def InInt64 (a : Int) : Prop := -2 ^ 63 ≤ a ∧ a < 2 ^ 63

instance (a : Int) : Decidable (InInt64 a) := inferInstanceAs (Decidable (_ ∧ _))

def sub64 (a b : Int) : Option Int := if InInt64 (a - b) then some (a - b) else none

def div64 (a b : Int) : Option Int :=
  if b ≠ 0 ∧ InInt64 (a.tdiv b) then some (a.tdiv b) else none

/-- The remainder is undefined wherever the quotient is. -/
def mod64 (a b : Int) : Option Int :=
  if b ≠ 0 ∧ InInt64 (a.tdiv b) then some (a.tmod b) else none

/-- The quotient of a value that is not negative is no larger. -/
theorem tdiv_inInt64 {a : Int} (b : Int) (ha : 0 ≤ a) (hfits : InInt64 a) :
    InInt64 (a.tdiv b) := by
  have hle := Int.natAbs_tdiv_le_natAbs a b
  unfold InInt64 at hfits ⊢
  omega

theorem wrap_eq_iff (n m : Nat) (hm : 0 < m) : n % m = n ↔ n < m :=
  ⟨fun h => h ▸ Nat.mod_lt n hm, Nat.mod_eq_of_lt⟩

/-- A product of 32 bits, widened afterwards, is exact when it fits 32 bits. -/
theorem widened_mul_iff (n a : UInt32) :
    (n * a).toUInt64.toNat = n.toNat * a.toNat ↔ n.toNat * a.toNat < 2 ^ 32 := by
  rw [UInt32.toNat_toUInt64, UInt32.toNat_mul]
  exact wrap_eq_iff _ _ (by decide)

theorem widened_mul_mul_iff (n a b : UInt32) :
    (n * a * b).toUInt64.toNat = n.toNat * (a.toNat * b.toNat) ↔
      n.toNat * (a.toNat * b.toNat) < 2 ^ 32 := by
  rw [UInt32.toNat_toUInt64, UInt32.toNat_mul, UInt32.toNat_mul, Nat.mod_mul_mod, Nat.mul_assoc]
  exact wrap_eq_iff _ _ (by decide)

theorem narrowed_iff (n : UInt32) : n.toUInt16.toNat = n.toNat ↔ n.toNat < 2 ^ 16 := by
  rw [UInt32.toNat_toUInt16]
  exact wrap_eq_iff _ _ (by decide)

end MachineInt
