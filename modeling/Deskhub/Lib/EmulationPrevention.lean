import Mathlib.Data.List.Infix
import Mathlib.Tactic.Common

/-!
# Emulation prevention

Bytes that may not hold a start code: behind two zeros a byte of at most three gets a three in front
of it. Removing those threes gives the bytes back. Both sides count the zeros behind which they
stand, and count them alike.
-/

namespace Emulation

/-- How many zeros a byte leaves behind it. -/
def zerosAfter (zeros : Nat) (b : UInt8) : Nat := if b = 0 then zeros + 1 else 0

/-- The bytes with threes put in. -/
def protect : Nat → List UInt8 → List UInt8
  | _, [] => []
  | zeros, b :: bs =>
    if 2 ≤ zeros ∧ b ≤ 3 then 3 :: b :: protect (zerosAfter 0 b) bs
    else b :: protect (zerosAfter zeros b) bs

/-- The zeros at the end of the bytes that `protect` gives. -/
def zerosOf : Nat → List UInt8 → Nat
  | zeros, [] => zeros
  | zeros, b :: bs => zerosOf (zerosAfter (if 2 ≤ zeros ∧ b ≤ 3 then 0 else zeros) b) bs

/-- The bytes with the threes behind two zeros left out. -/
def strip : Nat → List UInt8 → List UInt8
  | _, [] => []
  | zeros, b :: bs =>
    if 2 ≤ zeros ∧ b = 3 then strip 0 bs else b :: strip (zerosAfter zeros b) bs

theorem protect_of_short {zeros : Nat} {b : UInt8} (h : 2 ≤ zeros ∧ b ≤ 3) (bs : List UInt8) :
    protect zeros (b :: bs) = 3 :: b :: protect (zerosAfter 0 b) bs := if_pos h

theorem protect_of_not {zeros : Nat} {b : UInt8} (h : ¬ (2 ≤ zeros ∧ b ≤ 3)) (bs : List UInt8) :
    protect zeros (b :: bs) = b :: protect (zerosAfter zeros b) bs := if_neg h

/-- Removing what was put in gives the bytes back. -/
theorem strip_protect (zeros : Nat) (bs : List UInt8) : strip zeros (protect zeros bs) = bs := by
  induction bs generalizing zeros with
  | nil => rfl
  | cons b bs ih =>
    by_cases hshort : 2 ≤ zeros ∧ b ≤ 3
    · rw [protect_of_short hshort, strip, if_pos ⟨hshort.1, rfl⟩, strip,
        if_neg (fun h => absurd h.1 (by decide)), ih]
    · have hkept : ¬ (2 ≤ zeros ∧ b = 3) := by
        rintro ⟨hzeros, rfl⟩
        exact hshort ⟨hzeros, by decide⟩
      rw [protect_of_not hshort, strip, if_neg hkept, ih]

theorem protect_append (zeros : Nat) (xs ys : List UInt8) :
    protect zeros (xs ++ ys) = protect zeros xs ++ protect (zerosOf zeros xs) ys := by
  induction xs generalizing zeros with
  | nil => rfl
  | cons b xs ih =>
    rw [List.cons_append, zerosOf]
    by_cases hshort : 2 ≤ zeros ∧ b ≤ 3
    · rw [protect_of_short hshort, protect_of_short hshort, if_pos hshort, ih]
      rfl
    · rw [protect_of_not hshort, protect_of_not hshort, if_neg hshort, ih]
      rfl

theorem zerosOf_append (zeros : Nat) (xs ys : List UInt8) :
    zerosOf zeros (xs ++ ys) = zerosOf (zerosOf zeros xs) ys := by
  induction xs generalizing zeros with
  | nil => rfl
  | cons b xs ih => exact ih _

theorem getLast?_protect (zeros : Nat) (bs : List UInt8) :
    (protect zeros bs).getLast? = bs.getLast? := by
  induction bs generalizing zeros with
  | nil => rfl
  | cons b bs ih =>
    by_cases hshort : 2 ≤ zeros ∧ b ≤ 3
    · rw [protect_of_short hshort, List.getLast?_cons, List.getLast?_cons, List.getLast?_cons, ih]
      rfl
    · rw [protect_of_not hshort, List.getLast?_cons, List.getLast?_cons, ih]

/-! ## No start code -/

/-- No one stands behind two zeros, counting those in front. -/
def Safe : Nat → List UInt8 → Prop
  | _, [] => True
  | zeros, b :: bs => ¬ (2 ≤ zeros ∧ b = 1) ∧ Safe (zerosAfter zeros b) bs

theorem safe_protect (zeros : Nat) (bs : List UInt8) : Safe zeros (protect zeros bs) := by
  induction bs generalizing zeros with
  | nil => trivial
  | cons b bs ih =>
    by_cases hshort : 2 ≤ zeros ∧ b ≤ 3
    · rw [protect_of_short hshort]
      refine ⟨?_, ?_, ih _⟩
      · rintro ⟨-, hthree⟩
        exact absurd hthree (by decide)
      · rintro ⟨hzeros, -⟩
        change 2 ≤ 0 at hzeros
        omega
    · rw [protect_of_not hshort]
      refine ⟨?_, ih _⟩
      rintro ⟨hzeros, rfl⟩
      exact hshort ⟨hzeros, by decide⟩

theorem Safe.free_of_startCode {zeros : Nat} {bs : List UInt8} (h : Safe zeros bs) :
    ¬ [0, 0, 1] <:+: bs := by
  rintro ⟨front, back, rfl⟩
  induction front generalizing zeros with
  | nil => exact h.2.2.1 ⟨Nat.le_add_left 2 zeros, rfl⟩
  | cons b front ih => exact ih h.2

end Emulation
