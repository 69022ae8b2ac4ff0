import Mathlib.Algebra.BigOperators.Ring.Finset
import Mathlib.Data.Nat.Bitwise

/-!
# Numbers as binary polynomials

The bits of a number as the coefficients of a polynomial, taken at a point of a ring of
characteristic two: `xor` adds, doubling multiplies by the point.
-/

universe u

namespace BinaryPoly

variable {R : Type u} [CommRing R]

/-- The low `w` bits of a number as a polynomial at `x`. -/
def valueAt (x : R) (w n : Nat) : R := ∑ i ∈ Finset.range w, if n.testBit i then x ^ i else 0

theorem valueAt_zero (x : R) (w : Nat) : valueAt x w 0 = 0 := by
  unfold valueAt
  simp

theorem valueAt_succ (x : R) (w n : Nat) :
    valueAt x (w + 1) n = valueAt x w n + if n.testBit w then x ^ w else 0 :=
  Finset.sum_range_succ ..

theorem valueAt_two_pow (x : R) {w k : Nat} (h : k < w) : valueAt x w (2 ^ k) = x ^ k := by
  unfold valueAt
  rw [Finset.sum_eq_single_of_mem k (Finset.mem_range.mpr h), Nat.testBit_two_pow_self, if_pos rfl]
  intro i _ hne
  rw [Nat.testBit_two_pow_of_ne hne.symm]
  rfl

/-- Bits above the number do not count. -/
theorem valueAt_of_lt (x : R) {w w' n : Nat} (h : w ≤ w') (hn : n < 2 ^ w) :
    valueAt x w' n = valueAt x w n := by
  unfold valueAt
  symm
  apply Finset.sum_subset
  · intro i hi
    rw [Finset.mem_range] at hi ⊢
    omega
  · intro i _ hi
    rw [Finset.mem_range, not_lt] at hi
    have hsmall : n < 2 ^ i := lt_of_lt_of_le hn (Nat.pow_le_pow_right (by decide) hi)
    rw [Nat.testBit_lt_two_pow hsmall]
    rfl

theorem valueAt_double (x : R) (w n : Nat) : valueAt x (w + 1) (2 * n) = x * valueAt x w n := by
  unfold valueAt
  rw [Finset.sum_range_succ', Finset.mul_sum]
  have hlast : (if (2 * n).testBit 0 then x ^ 0 else 0) = 0 := by simp
  rw [hlast, add_zero]
  apply Finset.sum_congr rfl
  intro i _
  rw [Nat.testBit_succ, Nat.mul_div_cancel_left n (by decide)]
  by_cases hbit : n.testBit i
  · rw [if_pos hbit, if_pos hbit, pow_succ']
  · rw [if_neg hbit, if_neg hbit, mul_zero]

theorem valueAt_xor (hchar : ∀ y : R, y + y = 0) (x : R) (w m n : Nat) :
    valueAt x w (m ^^^ n) = valueAt x w m + valueAt x w n := by
  unfold valueAt
  rw [← Finset.sum_add_distrib]
  apply Finset.sum_congr rfl
  intro i _
  rw [Nat.testBit_xor]
  cases m.testBit i with
  | false => simp
  | true =>
    cases n.testBit i with
    | false => simp
    | true => simp [hchar]

/-- Doubling, and dropping the top bit against a modulus that vanishes at the point, multiplies by
the point. -/
theorem valueAt_reduce (hchar : ∀ y : R, y + y = 0) {x : R} {w n m : Nat}
    (hzero : valueAt x (w + 1) m = 0) (hsmall : 2 * n ^^^ m < 2 ^ w) :
    valueAt x w (2 * n ^^^ m) = x * valueAt x w n := by
  rw [← valueAt_of_lt x (Nat.le_succ w) hsmall, valueAt_xor hchar, hzero, add_zero, valueAt_double]

end BinaryPoly
