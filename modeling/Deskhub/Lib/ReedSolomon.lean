import Mathlib.Algebra.BigOperators.GroupWithZero.Finset
import Mathlib.Tactic.LinearCombination
import Mathlib.Tactic.Ring

/-!
# Reed-Solomon codewords

Polynomials over a ring of characteristic two as their coefficients, the highest first. What a
shift register leaves of a message, divided by the product of `x + a ^ k`, makes the message a
codeword: it vanishes at the powers of `a`.
-/

universe u

namespace ReedSolomon

variable {R : Type u} [CommRing R]

/-- The value of a polynomial at a point. -/
def evalAt (x : R) (cs : List R) : R := cs.foldl (fun acc c => acc * x + c) 0

/-- One factor more: every coefficient takes the next one to itself. -/
def generatorStep (root : R) : List R → List R
  | [] => []
  | [c] => [c * root]
  | c :: next :: rest => (c * root + next) :: generatorStep root (next :: rest)

/-- The product of the first `i` factors, kept in `d` places. -/
def product (a : R) (d : Nat) : Nat → List R
  | 0 => List.replicate (d - 1) 0 ++ [1]
  | i + 1 => generatorStep (a ^ i) (product a d i)

/-- The generator of degree `d` without its leading coefficient, which no place is left for. -/
def generator (a : R) (d : Nat) : List R := product a d d

/-- A coefficient of the message goes through the register. -/
def feed (gen : List R) (register : List R) (c : R) : List R :=
  List.zipWith (fun kept g => kept + g * (c + register.headD 0)) (register.tail ++ [0]) gen

/-- What the register holds behind a message. -/
def remainder (gen message : List R) : List R :=
  message.foldl (feed gen) (List.replicate gen.length 0)

/-! ## Values -/

theorem foldl_evalAt (x acc : R) (cs : List R) :
    cs.foldl (fun acc c => acc * x + c) acc = acc * x ^ cs.length + evalAt x cs := by
  induction cs generalizing acc with
  | nil =>
    unfold evalAt
    simp
  | cons c cs ih =>
    unfold evalAt
    rw [List.foldl_cons, List.foldl_cons, ih, ih (0 * x + c), List.length_cons]
    ring

theorem evalAt_append (x : R) (cs ds : List R) :
    evalAt x (cs ++ ds) = evalAt x cs * x ^ ds.length + evalAt x ds := by
  conv_lhs => unfold evalAt
  rw [List.foldl_append, foldl_evalAt]
  rfl

theorem evalAt_cons (x c : R) (cs : List R) :
    evalAt x (c :: cs) = c * x ^ cs.length + evalAt x cs := by
  have h := evalAt_append x [c] cs
  rw [List.singleton_append] at h
  rw [h]
  unfold evalAt
  simp

theorem evalAt_concat (x c : R) (cs : List R) : evalAt x (cs ++ [c]) = evalAt x cs * x + c := by
  rw [evalAt_append]
  unfold evalAt
  simp

theorem evalAt_replicate_zero (x : R) (n : Nat) : evalAt x (List.replicate n 0) = 0 := by
  induction n with
  | zero => rfl
  | succ n ih => rw [List.replicate_succ, evalAt_cons, ih, zero_mul, add_zero]

/-- A multiple of one polynomial added to another, coefficient by coefficient. -/
theorem evalAt_zipWith (x f : R) {cs gs : List R} (h : cs.length = gs.length) :
    evalAt x (List.zipWith (fun c g => c + g * f) cs gs) = evalAt x cs + f * evalAt x gs := by
  induction cs generalizing gs with
  | nil =>
    have hnil : gs = [] := List.eq_nil_of_length_eq_zero h.symm
    rw [hnil]
    unfold evalAt
    simp
  | cons c cs ih =>
    cases gs with
    | nil => cases h
    | cons g gs =>
      have hlength : cs.length = gs.length := Nat.succ.inj h
      rw [List.zipWith_cons_cons, evalAt_cons, evalAt_cons, evalAt_cons, ih hlength,
        List.length_zipWith, hlength, Nat.min_self]
      ring

/-! ## The register -/

theorem length_feed {gen register : List R} (h : register.length = gen.length) (hne : gen ≠ [])
    (c : R) : (feed gen register c).length = gen.length := by
  have hpos := List.length_pos_iff.mpr hne
  unfold feed
  rw [List.length_zipWith, List.length_append, List.length_tail, List.length_singleton]
  omega

/-- Where the generator has the value of its missing coefficient, the register goes on as the
message does. -/
theorem evalAt_feed {gen register : List R} (h : register.length = gen.length) (hne : gen ≠ [])
    {x : R} (hroot : evalAt x gen = x ^ gen.length) (c : R) :
    evalAt x (feed gen register c) = evalAt x register * x + c * x ^ gen.length := by
  cases register with
  | nil =>
    have hpos := List.length_pos_iff.mpr hne
    rw [List.length_nil] at h
    omega
  | cons first rest =>
    rw [List.length_cons] at h
    have hlength : (rest ++ [0]).length = gen.length := by
      rw [List.length_append, List.length_singleton]
      exact h
    unfold feed
    rw [List.tail_cons, List.headD_cons, evalAt_zipWith x (c + first) hlength, evalAt_concat, hroot,
      evalAt_cons, ← h]
    ring

theorem remainder_concat (gen message : List R) (c : R) :
    remainder gen (message ++ [c]) = feed gen (remainder gen message) c :=
  List.foldl_concat ..

theorem length_remainder {gen : List R} (hne : gen ≠ []) (message : List R) :
    (remainder gen message).length = gen.length := by
  induction message using List.reverseRecOn with
  | nil => exact List.length_replicate
  | append_singleton message c ih =>
    rw [remainder_concat]
    exact length_feed ih hne c

theorem evalAt_remainder {gen : List R} (hne : gen ≠ []) {x : R}
    (hroot : evalAt x gen = x ^ gen.length) (message : List R) :
    evalAt x (remainder gen message) = evalAt x message * x ^ gen.length := by
  induction message using List.reverseRecOn with
  | nil =>
    unfold remainder
    rw [List.foldl_nil, evalAt_replicate_zero]
    unfold evalAt
    simp
  | append_singleton message c ih =>
    rw [remainder_concat, evalAt_feed (length_remainder hne message) hne hroot, ih, evalAt_concat]
    ring

/-! ## The generator -/

theorem length_generatorStep (root : R) (cs : List R) : (generatorStep root cs).length = cs.length := by
  induction cs with
  | nil => rfl
  | cons c cs ih =>
    cases cs with
    | nil => rfl
    | cons next rest => rw [generatorStep, List.length_cons, ih, List.length_cons, List.length_cons, List.length_cons]

theorem length_product (a : R) {d : Nat} (hd : 0 < d) (i : Nat) : (product a d i).length = d := by
  induction i with
  | zero =>
    rw [product, List.length_append, List.length_replicate, List.length_singleton]
    omega
  | succ i ih => rw [product, length_generatorStep, ih]

theorem generatorStep_front (root : R) (rest : List R) (n : Nat) :
    ∃ rest' : List R, generatorStep root (0 :: (List.replicate n 0 ++ 1 :: rest)) =
      List.replicate n 0 ++ 1 :: rest' := by
  induction n with
  | zero =>
    refine ⟨generatorStep root (1 :: rest), ?_⟩
    rw [List.replicate_zero, List.nil_append, List.nil_append, generatorStep, zero_mul, zero_add]
  | succ n ih =>
    rcases ih with ⟨rest', hrest⟩
    refine ⟨rest', ?_⟩
    rw [List.replicate_succ, List.cons_append, generatorStep, hrest, zero_mul, zero_add,
      List.cons_append]

section CharTwo

variable (hchar : ∀ x : R, x + x = 0)

include hchar

/-- A step multiplies by `x + root`, but for the coefficient that falls off the front. -/
theorem evalAt_generatorStep (x root : R) (c : R) (cs : List R) :
    evalAt x (generatorStep root (c :: cs)) =
      (x + root) * evalAt x (c :: cs) + c * x ^ (cs.length + 1) := by
  induction cs generalizing c with
  | nil =>
    rw [generatorStep, evalAt_cons, evalAt_cons]
    unfold evalAt
    simp only [List.length_nil, List.foldl_nil, pow_zero, mul_one, add_zero, zero_add, pow_one]
    linear_combination -(hchar (c * x))
  | cons next rest ih =>
    rw [generatorStep, evalAt_cons, ih, length_generatorStep, evalAt_cons x c, List.length_cons]
    linear_combination -(hchar (c * x ^ (rest.length + 1 + 1)))
      + hchar (next * x ^ (rest.length + 1))

/-- Before the last step the front is empty up to the leading coefficient, which is one, and the
value is the product of the factors so far. -/
theorem product_spec (a x : R) {d : Nat} {i : Nat} (hi : i < d) :
    (∃ rest : List R, product a d i = List.replicate (d - 1 - i) 0 ++ 1 :: rest) ∧
      evalAt x (product a d i) = ∏ k ∈ Finset.range i, (x + a ^ k) := by
  induction i with
  | zero =>
    refine ⟨⟨[], rfl⟩, ?_⟩
    rw [product, evalAt_concat, evalAt_replicate_zero, zero_mul, zero_add, Finset.range_zero,
      Finset.prod_empty]
  | succ i ih =>
    rcases ih (Nat.lt_of_succ_lt hi) with ⟨⟨rest, hfront⟩, hvalue⟩
    have hroom : d - 1 - i = (d - 1 - (i + 1)) + 1 := by omega
    rw [hroom, List.replicate_succ] at hfront
    -- the coefficient that falls off is zero
    have hstep := evalAt_generatorStep hchar x (a ^ i) 0
      (List.replicate (d - 1 - (i + 1)) 0 ++ 1 :: rest)
    rw [← List.cons_append, ← hfront, hvalue, zero_mul, add_zero] at hstep
    constructor
    · rw [product, hfront]
      exact generatorStep_front (a ^ i) rest (d - 1 - (i + 1))
    · rw [product, hstep, Finset.prod_range_succ, mul_comm]

/-- At each of its roots the generator has the value of the coefficient that it does not keep. -/
theorem evalAt_generator (a : R) {d k : Nat} (hk : k < d) : evalAt (a ^ k) (generator a d) = (a ^ k) ^ d := by
  obtain ⟨e, rfl⟩ : ∃ e, d = e + 1 := ⟨d - 1, by omega⟩
  rcases product_spec hchar a (a ^ k) (Nat.lt_succ_self e) with ⟨⟨rest, hfront⟩, hvalue⟩
  have hnone : e + 1 - 1 - e = 0 := by omega
  rw [hnone, List.replicate_zero, List.nil_append] at hfront
  have hlength := length_product a (Nat.succ_pos e) e
  rw [hfront, List.length_cons] at hlength
  have hrest : rest.length = e := by omega
  have hstep := evalAt_generatorStep hchar (a ^ k) (a ^ e) 1 rest
  rw [← hfront, hvalue, one_mul, hrest, mul_comm, ← Finset.prod_range_succ] at hstep
  have hzero : ∏ i ∈ Finset.range (e + 1), (a ^ k + a ^ i) = 0 :=
    Finset.prod_eq_zero (Finset.mem_range.mpr hk) (hchar (a ^ k))
  rw [hzero, zero_add] at hstep
  exact hstep

/-- A message and its remainder make a codeword. -/
theorem evalAt_codeword (a : R) {d k : Nat} (hk : k < d) (message : List R) :
    evalAt (a ^ k) (message ++ remainder (generator a d) message) = 0 := by
  have hd : 0 < d := Nat.lt_of_le_of_lt (Nat.zero_le k) hk
  have hlength : (generator a d).length = d := length_product a hd d
  have hne : generator a d ≠ [] := by
    rw [← List.length_pos_iff, hlength]
    exact hd
  have hroot : evalAt (a ^ k) (generator a d) = (a ^ k) ^ (generator a d).length := by
    rw [hlength]
    exact evalAt_generator hchar a hk
  rw [evalAt_append, length_remainder hne, evalAt_remainder hne hroot]
  exact hchar _

end CharTwo

end ReedSolomon
