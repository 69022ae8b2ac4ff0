import Mathlib.Data.List.Chain
import Mathlib.Data.UInt

/-!
# Serial numbers

Numbers of 32 bits that go round: one is after another if the signed difference is positive. A
chain of numbers, each after the one before, meets a number again only after a whole lap.
-/

namespace SerialNumbers

/-- `int32_t` of a 32-bit difference. -/
def int32 (x : UInt32) : Int := if x.toNat < 2 ^ 31 then x.toNat else (x.toNat : Int) - 2 ^ 32

/-- `a` is after `b` in serial-number order. -/
def IsAfter (a b : UInt32) : Prop := 0 < int32 (a - b)

instance (a b : UInt32) : Decidable (IsAfter a b) := inferInstanceAs (Decidable (_ < _))

theorem isAfter_iff {a b : UInt32} : IsAfter a b ↔ 0 < (a - b).toNat ∧ (a - b).toNat < 2 ^ 31 := by
  have hsize := (a - b).toNat_lt
  unfold IsAfter int32
  split
  · omega
  · omega

theorem isAfter_next (a : UInt32) : IsAfter (a + 1) a := by
  have hdiff : a + 1 - a = 1 := by rw [UInt32.add_comm, UInt32.add_sub_cancel]
  rw [isAfter_iff, hdiff]
  decide

theorem toNat_sub_of_le {a b : UInt32} (h : b ≤ a) : (a - b).toNat = a.toNat - b.toNat :=
  UInt32.toNat_sub_of_le _ _ h

/-- Two differences go together. -/
theorem toNat_sub_mod (a b c : UInt32) : ((a - b).toNat + (b - c).toNat) % 2 ^ 32 = (a - c).toNat := by
  have ha := a.toNat_lt
  have hb := b.toNat_lt
  have hc := c.toNat_lt
  rw [UInt32.toNat_sub, UInt32.toNat_sub, UInt32.toNat_sub]
  omega

/-- Two steps ahead are one, as long as they do not go round. -/
theorem toNat_sub_add {a b c : UInt32} (h : (a - b).toNat + (b - c).toNat < 2 ^ 32) :
    (a - c).toNat = (a - b).toNat + (b - c).toNat := by
  rw [← toNat_sub_mod a b c]
  exact Nat.mod_eq_of_lt h

/-- A number that is not due comes one nearer with each step. -/
theorem toNat_sub_next {a b : UInt32} (h : a ≠ b) : (a - (b + 1)).toNat + 1 = (a - b).toNat := by
  have hb := b.toNat_lt
  have ha := a.toNat_lt
  have hne : a.toNat ≠ b.toNat := fun heq => h (UInt32.toNat_inj.mp heq)
  rw [UInt32.toNat_sub, UInt32.toNat_sub, UInt32.toNat_add]
  have hone : (1 : UInt32).toNat = 1 := rfl
  omega

/-- How far a list of numbers goes ahead, step by step. -/
def advance : List UInt32 → Nat
  | a :: b :: rest => (b - a).toNat + advance (b :: rest)
  | _ => 0

/-- Up to whole laps, the list goes ahead by the difference of its ends. -/
theorem advance_mod (a : UInt32) (mid : List UInt32) (b : UInt32) :
    advance (a :: mid ++ [b]) % 2 ^ 32 = (b - a).toNat := by
  induction mid generalizing a with
  | nil => exact Nat.mod_eq_of_lt (b - a).toNat_lt
  | cons c mid ih =>
    have hlap := toNat_sub_mod b c a
    have hrest := ih c
    show ((c - a).toNat + advance (c :: mid ++ [b])) % 2 ^ 32 = (b - a).toNat
    omega

/-- Each number is after the one before. -/
def Ascending (seqs : List UInt32) : Prop := seqs.IsChain fun a b => IsAfter b a

instance (seqs : List UInt32) : Decidable (Ascending seqs) := inferInstanceAs (Decidable (seqs.IsChain _))

/-- A number comes again only after a whole lap. -/
theorem Ascending.lap {a : UInt32} {mid : List UInt32} (h : Ascending (a :: mid ++ [a])) :
    2 ^ 32 ≤ advance (a :: mid ++ [a]) := by
  have hmod := advance_mod a mid a
  rw [UInt32.sub_self] at hmod
  have hpos : 0 < advance (a :: mid ++ [a]) := by
    cases mid with
    | nil => exact absurd (isAfter_iff.mp (List.isChain_cons_cons.mp h).1).1 (by simp)
    | cons c mid =>
      have hfirst := (isAfter_iff.mp (List.isChain_cons_cons.mp h).1).1
      exact Nat.add_pos_left hfirst _
  have hzero : (0 : UInt32).toNat = 0 := rfl
  omega

end SerialNumbers
