import Mathlib.Data.Nat.Bitwise
import Mathlib.Data.List.Basic
import Mathlib.Tactic.Ring

/-!
# Numbers as bit strings

The low `w` bits of a number, the highest first. Numbers of one width written one
behind the other are determined by the bits they give, so regrouping bits into
numbers of another width loses nothing.
-/

namespace BitStrings

/-- The low `w` bits of `v`, the highest first. -/
def bits : Nat → Nat → List Bool
  | 0, _ => []
  | w + 1, v => v.testBit w :: bits w v

@[simp] theorem length_bits (w v : Nat) : (bits w v).length = w := by
  induction w with
  | zero => rfl
  | succ w ih => rw [bits, List.length_cons, ih]

/-- The bits above a place, and those below it. -/
theorem bits_add (m n v : Nat) : bits (m + n) v = bits m (v >>> n) ++ bits n v := by
  induction m with
  | zero => rw [Nat.zero_add]; rfl
  | succ m ih =>
    rw [Nat.add_right_comm, bits, ih, bits, Nat.testBit_shiftRight, Nat.add_comm n m]
    rfl

/-- Only the low bits count. -/
theorem bits_mod {w k : Nat} (h : w ≤ k) (v : Nat) : bits w (v % 2 ^ k) = bits w v := by
  induction w with
  | zero => rfl
  | succ w ih =>
    rw [bits, bits, ih (Nat.le_of_succ_le h), Nat.testBit_mod_two_pow,
      decide_eq_true (Nat.lt_of_succ_le h), Bool.true_and]

/-- A number of `w` bits behind another one. -/
theorem bits_push (m x : Nat) {w y : Nat} (h : y < 2 ^ w) :
    bits (m + w) (x * 2 ^ w + y) = bits m x ++ bits w y := by
  have hpos : 0 < 2 ^ w := Nat.two_pow_pos w
  have hhigh : (x * 2 ^ w + y) >>> w = x := by
    rw [Nat.shiftRight_eq_div_pow, Nat.add_comm, Nat.add_mul_div_right y x hpos,
      Nat.div_eq_of_lt h, Nat.zero_add]
  have hlow : (x * 2 ^ w + y) % 2 ^ w = y := by
    rw [Nat.mul_add_mod', Nat.mod_eq_of_lt h]
  rw [bits_add, hhigh, ← bits_mod (Nat.le_refl w) (x * 2 ^ w + y), hlow]

theorem bits_zero (w : Nat) : bits w 0 = List.replicate w false := by
  induction w with
  | zero => rfl
  | succ w ih => rw [bits, ih, Nat.zero_testBit, List.replicate_succ]

theorem bits_congr {w u v : Nat} (h : ∀ i, i < w → u.testBit i = v.testBit i) :
    bits w u = bits w v := by
  induction w with
  | zero => rfl
  | succ w ih =>
    rw [bits, bits, h w (Nat.lt_succ_self w), ih fun i hi => h i (Nat.lt_succ_of_lt hi)]

/-- Setting a bit of a number sets its place in the string. -/
theorem bits_or_two_pow {w k : Nat} (h : k < w) (v : Nat) :
    bits w (v ||| 2 ^ k) = (bits w v).set (w - 1 - k) true := by
  induction w with
  | zero => exact absurd h (Nat.not_lt_zero k)
  | succ w ih =>
    rw [bits, bits, Nat.testBit_or]
    by_cases htop : k = w
    · have hlow : bits w (v ||| 2 ^ k) = bits w v := bits_congr fun i hi => by
        rw [Nat.testBit_or, Nat.testBit_two_pow_of_ne (by omega), Bool.or_false]
      have hplace : w + 1 - 1 - k = 0 := by omega
      rw [hlow, hplace, List.set_cons_zero, htop, Nat.testBit_two_pow_self, Bool.or_true]
    · have hplace : w + 1 - 1 - k = w - 1 - k + 1 := by omega
      rw [ih (by omega), hplace, List.set_cons_succ, Nat.testBit_two_pow_of_ne htop, Bool.or_false]

/-- Two numbers with the same low bits agree modulo that width. -/
theorem mod_eq_of_bits {w u v : Nat} (h : bits w u = bits w v) : u % 2 ^ w = v % 2 ^ w := by
  apply Nat.eq_of_testBit_eq
  intro i
  rw [Nat.testBit_mod_two_pow, Nat.testBit_mod_two_pow]
  by_cases hi : i < w
  · have hbit : u.testBit i = v.testBit i := by
      induction w with
      | zero => exact absurd hi (Nat.not_lt_zero i)
      | succ w ih =>
        rw [bits, bits, List.cons.injEq] at h
        rcases Nat.lt_succ_iff_lt_or_eq.mp hi with hlt | heq
        · exact ih h.2 hlt
        · rw [heq]
          exact h.1
    rw [hbit]
  · rw [decide_eq_false hi, Bool.false_and, Bool.false_and]

/-- The number with the given bits, the highest first. -/
def ofBits (bs : List Bool) : Nat := bs.foldl (fun n b => 2 * n + b.toNat) 0

theorem ofBits_bits (w v : Nat) : ofBits (bits w v) = v % 2 ^ w := by
  have hfold : ∀ n, (bits w v).foldl (fun n b => 2 * n + b.toNat) n = n * 2 ^ w + v % 2 ^ w := by
    induction w with
    | zero =>
      intro n
      rw [bits, List.foldl_nil, Nat.pow_zero, Nat.mul_one, Nat.mod_one, Nat.add_zero]
    | succ w ih =>
      intro n
      rw [bits, List.foldl_cons, ih, Nat.mod_pow_succ, Nat.toNat_testBit, Nat.pow_succ]
      ring
  have h := hfold 0
  rw [Nat.zero_mul, Nat.zero_add] at h
  exact h

/-- The bits of numbers of one width, one behind the other. -/
def joined (w : Nat) (vs : List Nat) : List Bool := vs.flatMap (bits w)

theorem joined_cons (w v : Nat) (vs : List Nat) : joined w (v :: vs) = bits w v ++ joined w vs :=
  rfl

theorem joined_append (w : Nat) (us vs : List Nat) :
    joined w (us ++ vs) = joined w us ++ joined w vs :=
  List.flatMap_append

theorem length_joined (w : Nat) (vs : List Nat) : (joined w vs).length = w * vs.length := by
  induction vs with
  | nil => rfl
  | cons v vs ih =>
    rw [joined_cons, List.length_append, length_bits, ih, List.length_cons, Nat.mul_succ,
      Nat.add_comm]

theorem getElem?_bits {w j : Nat} (h : j < w) (v : Nat) : (bits w v)[j]? = some (v.testBit (w - 1 - j)) := by
  induction w generalizing j with
  | zero => exact absurd h (Nat.not_lt_zero j)
  | succ w ih =>
    rw [bits]
    cases j with
    | zero => rfl
    | succ j =>
      have hplace : w - 1 - j = w + 1 - 1 - (j + 1) := by omega
      rw [List.getElem?_cons_succ, ih (Nat.lt_of_succ_lt_succ h), hplace]

/-- Bit `j` of number `i`. -/
theorem getElem?_joined {w i j : Nat} {vs : List Nat} (hi : i < vs.length) (hj : j < w) :
    (joined w vs)[w * i + j]? = some (vs[i].testBit (w - 1 - j)) := by
  induction vs generalizing i with
  | nil => exact absurd hi (Nat.not_lt_zero i)
  | cons v vs ih =>
    rw [joined_cons]
    cases i with
    | zero =>
      rw [Nat.mul_zero, Nat.zero_add, List.getElem?_append_left (by rw [length_bits]; exact hj),
        getElem?_bits hj]
      rfl
    | succ i =>
      have hplace : w * (i + 1) + j - w = w * i + j := by
        rw [Nat.mul_succ]
        omega
      rw [List.getElem?_append_right (by rw [length_bits, Nat.mul_succ]; omega), length_bits, hplace,
        ih (Nat.lt_of_succ_lt_succ hi)]
      rfl

/-- Numbers below `2 ^ w` are determined by their bits. -/
theorem joined_inj {w : Nat} (hw : 0 < w) {us vs : List Nat} (hus : ∀ u ∈ us, u < 2 ^ w)
    (hvs : ∀ v ∈ vs, v < 2 ^ w) (h : joined w us = joined w vs) : us = vs := by
  induction us generalizing vs with
  | nil =>
    cases vs with
    | nil => rfl
    | cons v vs =>
      have hlen := congrArg List.length h
      rw [length_joined, length_joined, List.length_cons, List.length_nil, Nat.mul_zero] at hlen
      exact absurd hlen.symm (Nat.mul_pos hw (Nat.succ_pos _)).ne'
  | cons u us ih =>
    cases vs with
    | nil =>
      have hlen := congrArg List.length h
      rw [length_joined, length_joined, List.length_cons, List.length_nil, Nat.mul_zero] at hlen
      exact absurd hlen (Nat.mul_pos hw (Nat.succ_pos _)).ne'
    | cons v vs =>
      rw [joined_cons, joined_cons] at h
      rcases List.append_inj h (by rw [length_bits, length_bits]) with ⟨hhead, htail⟩
      have huv := mod_eq_of_bits hhead
      rw [Nat.mod_eq_of_lt (hus u List.mem_cons_self),
        Nat.mod_eq_of_lt (hvs v List.mem_cons_self)] at huv
      rw [huv, ih (fun x hx => hus x (List.mem_cons_of_mem u hx))
        (fun x hx => hvs x (List.mem_cons_of_mem v hx)) htail]

end BitStrings
