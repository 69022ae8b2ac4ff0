import Mathlib.Data.List.Perm.Basic
import Mathlib.Data.List.Basic

/-!
# XOR parity over byte strings of different length

`xorInto r p` adds `p` byte by byte into the front of `r`. A parity block is the
sum of the members of a group; adding all members but one to it leaves the
missing one, padded with zeros.
-/

namespace Xor

/-- XOR `p` into the front of `r`; what `p` does not reach stays as it is. -/
def xorInto : List UInt8 → List UInt8 → List UInt8
  | r :: rs, p :: ps => (r ^^^ p) :: xorInto rs ps
  | [], _ => []
  | rs, [] => rs

@[simp] theorem xorInto_nil_right (r : List UInt8) : xorInto r [] = r := by
  cases r <;> rfl

@[simp] theorem xorInto_nil_left (p : List UInt8) : xorInto [] p = [] := by
  cases p <;> rfl

@[simp] theorem length_xorInto (r p : List UInt8) : (xorInto r p).length = r.length := by
  fun_induction xorInto r p with
  | case1 r rs p ps ih => simp [ih]
  | case2 => rfl
  | case3 => rfl

/-- Adding the same string twice changes nothing. -/
theorem xorInto_self (r p : List UInt8) : xorInto (xorInto r p) p = r := by
  induction r generalizing p with
  | nil => simp
  | cons r rs ih =>
    cases p with
    | nil => rfl
    | cons p ps => simp [xorInto, ih, UInt8.xor_assoc]

/-- The order of two additions does not matter. -/
theorem xorInto_right_comm (r p q : List UInt8) :
    xorInto (xorInto r p) q = xorInto (xorInto r q) p := by
  induction r generalizing p q with
  | nil => simp
  | cons r rs ih =>
    cases p with
    | nil => simp
    | cons p ps =>
      cases q with
      | nil => simp
      | cons q qs =>
        simp only [xorInto, List.cons.injEq]
        exact ⟨by rw [UInt8.xor_assoc, UInt8.xor_assoc, UInt8.xor_comm p q], ih ps qs⟩

instance : RightCommutative xorInto := ⟨xorInto_right_comm⟩

/-- Adding a string into zeros writes the string. -/
theorem xorInto_zeros (n : Nat) (p : List UInt8) (h : p.length ≤ n) :
    xorInto (List.replicate n 0) p = p ++ List.replicate (n - p.length) 0 := by
  induction n generalizing p with
  | zero =>
    have : p = [] := List.length_eq_zero_iff.mp (by omega)
    simp [this]
  | succ n ih =>
    cases p with
    | nil => simp
    | cons p ps =>
      have hps := ih ps (by simpa using h)
      simp [List.replicate_succ, xorInto, hps]

@[simp] theorem length_foldl_xorInto (r : List UInt8) (ps : List (List UInt8)) :
    (ps.foldl xorInto r).length = r.length := by
  induction ps generalizing r with
  | nil => rfl
  | cons p ps ih => simp [ih]

theorem foldl_xorInto_comm (r p : List UInt8) (ps : List (List UInt8)) :
    ps.foldl xorInto (xorInto r p) = xorInto (ps.foldl xorInto r) p := by
  induction ps generalizing r with
  | nil => rfl
  | cons q ps ih => simp only [List.foldl_cons, xorInto_right_comm r p q, ih]

/-- A group added twice cancels. -/
theorem foldl_xorInto_self (r : List UInt8) (ps : List (List UInt8)) :
    ps.foldl xorInto (ps.foldl xorInto r) = r := by
  induction ps generalizing r with
  | nil => rfl
  | cons p ps ih =>
    simp only [List.foldl_cons]
    rw [foldl_xorInto_comm, ih, xorInto_self]

/-- The recovery rule: the parity of a group, with all members but `p` added,
is `p` in a field of zeros. -/
theorem recover {group others : List (List UInt8)} {p : List UInt8} {n : Nat}
    (hperm : group.Perm (p :: others)) (hp : p.length ≤ n) :
    others.foldl xorInto (group.foldl xorInto (List.replicate n 0)) =
      p ++ List.replicate (n - p.length) 0 := by
  rw [hperm.foldl_eq, List.foldl_cons, foldl_xorInto_self, xorInto_zeros n p hp]

end Xor
