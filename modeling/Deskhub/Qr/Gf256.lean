import Deskhub.Lib.BinaryPoly
import Deskhub.Lib.ReedSolomon
import Deskhub.Qr.QrCode
import Mathlib.Algebra.Field.ZMod
import Mathlib.RingTheory.AdjoinRoot

/-!
# Codewords over GF(256)

The bytes of a block as elements of GF(256) modulo 0x11D. `GfMultiply` is the product there, so
what `ReedSolomonRemainder` puts behind the data of a block makes it vanish at the powers of 2.
-/

open Polynomial

namespace Deskhub

namespace Qr

/-- 0x11D as a polynomial. -/
noncomputable def gf256Polynomial : (ZMod 2)[X] := X ^ 8 + X ^ 4 + X ^ 3 + X ^ 2 + 1

abbrev Gf256 : Type := AdjoinRoot gf256Polynomial

/-- The element with 2 as its byte. -/
noncomputable def gfTwo : Gf256 := AdjoinRoot.root gf256Polynomial

/-- The element a byte stands for: its bits are the coefficients of the powers of 2. -/
noncomputable def element (byte : UInt8) : Gf256 := BinaryPoly.valueAt gfTwo 8 byte.toNat

/-- The value of a block as a polynomial, its first codeword the highest coefficient. -/
noncomputable def blockAt (x : Gf256) (block : Bytes) : Gf256 :=
  ReedSolomon.evalAt x (block.map element)

theorem gf256_char (x : Gf256) : x + x = 0 := by
  have htwo : (2 : Gf256) = 0 := by
    have hmap : (algebraMap (ZMod 2) Gf256) 2 = 2 := map_ofNat _ 2
    have hzero : (2 : ZMod 2) = 0 := rfl
    rw [← hmap, hzero, map_zero]
  rw [← two_mul, htwo, zero_mul]

theorem gfTwo_root : gfTwo ^ 8 + gfTwo ^ 4 + gfTwo ^ 3 + gfTwo ^ 2 + 1 = 0 := by
  have h := AdjoinRoot.eval₂_root gf256Polynomial
  unfold gf256Polynomial at h
  simp only [eval₂_add, eval₂_X_pow, eval₂_one] at h
  exact h

/-- The modulus is nought in the field. -/
theorem valueAt_modulus : BinaryPoly.valueAt gfTwo 9 kGf256Modulus.toNat = 0 := by
  have hterms : kGf256Modulus.toNat = 2 ^ 8 ^^^ 2 ^ 4 ^^^ 2 ^ 3 ^^^ 2 ^ 2 ^^^ 2 ^ 0 := by decide
  rw [hterms]
  simp only [BinaryPoly.valueAt_xor gf256_char]
  rw [BinaryPoly.valueAt_two_pow gfTwo (by decide), BinaryPoly.valueAt_two_pow gfTwo (by decide),
    BinaryPoly.valueAt_two_pow gfTwo (by decide), BinaryPoly.valueAt_two_pow gfTwo (by decide),
    BinaryPoly.valueAt_two_pow gfTwo (by decide), pow_zero]
  exact gfTwo_root

theorem element_xor (a b : UInt8) : element (a ^^^ b) = element a + element b := by
  unfold element
  rw [UInt8.toNat_xor, BinaryPoly.valueAt_xor gf256_char]

theorem element_zero : element 0 = 0 := BinaryPoly.valueAt_zero gfTwo 8

theorem element_one : element 1 = 1 := by
  have h := BinaryPoly.valueAt_two_pow gfTwo (w := 8) (k := 0) (by decide)
  rw [pow_zero] at h
  exact h

theorem element_two : element 2 = gfTwo := by
  have h := BinaryPoly.valueAt_two_pow gfTwo (w := 8) (k := 1) (by decide)
  rw [pow_one gfTwo] at h
  exact h

/-! ## The product -/

/-- The product so far, moved one place up and reduced. -/
theorem double_spec {p : UInt32} (hp : p.toNat < 256) :
    ((p <<< 1) ^^^ ((p >>> 7) * kGf256Modulus)).toNat < 256 ∧
      BinaryPoly.valueAt gfTwo 8 ((p <<< 1) ^^^ ((p >>> 7) * kGf256Modulus)).toNat =
        gfTwo * BinaryPoly.valueAt gfTwo 8 p.toNat := by
  have hdouble : (p <<< 1).toNat = 2 * p.toNat := by
    rw [UInt32.toNat_shiftLeft]
    simp [Nat.shiftLeft_eq]
    omega
  have htop : (p >>> 7).toNat = p.toNat / 128 := by
    rw [UInt32.toNat_shiftRight]
    simp [Nat.shiftRight_eq_div_pow]
  have hmodulus : kGf256Modulus.toNat = 285 := by decide
  have hproduct : ((p >>> 7) * kGf256Modulus).toNat = p.toNat / 128 * 285 := by
    rw [UInt32.toNat_mul, htop, hmodulus]
    omega
  have hsmall : 2 * p.toNat ^^^ p.toNat / 128 * 285 < 2 ^ 8 := by
    have hall : ∀ n, n < 256 → 2 * n ^^^ n / 128 * 285 < 2 ^ 8 := by decide +kernel
    exact hall p.toNat hp
  have hzero : BinaryPoly.valueAt gfTwo 9 (p.toNat / 128 * 285) = 0 := by
    have hbit : p.toNat / 128 = 0 ∨ p.toNat / 128 = 1 := by omega
    rcases hbit with hlow | hhigh
    · rw [hlow, Nat.zero_mul, BinaryPoly.valueAt_zero]
    · rw [hhigh, Nat.one_mul, ← hmodulus, valueAt_modulus]
  rw [UInt32.toNat_xor, hdouble, hproduct]
  exact ⟨hsmall, BinaryPoly.valueAt_reduce gf256_char hzero hsmall⟩

/-- The summand of a turn: `a` where the bit of `b` is set. -/
theorem toNat_summand (a b : UInt8) {i : Nat} (hi : i < 8) :
    (((b.toUInt32 >>> UInt32.ofNat i) &&& 1) * a.toUInt32).toNat =
      if b.toNat.testBit i then a.toNat else 0 := by
  have hsize : UInt32.size = 4294967296 := rfl
  have hplace : (UInt32.ofNat i).toNat = i := UInt32.toNat_ofNat_of_lt' (by omega)
  have hbit : ((b.toUInt32 >>> UInt32.ofNat i) &&& 1).toNat = (b.toNat >>> i) % 2 := by
    rw [UInt32.toNat_and, UInt32.toNat_shiftRight, hplace, UInt8.toNat_toUInt32,
      Nat.mod_eq_of_lt (Nat.lt_trans hi (by decide)), UInt32.toNat_one, Nat.and_one_is_mod]
  have ha := UInt8.toNat_lt a
  rw [UInt32.toNat_mul, hbit, UInt8.toNat_toUInt32, Nat.testBit_eq_decide_div_mod_eq,
    ← Nat.shiftRight_eq_div_pow]
  rcases Nat.mod_two_eq_zero_or_one (b.toNat >>> i) with hclear | hset
  · rw [hclear, Nat.zero_mul, Nat.zero_mod]
    rfl
  · rw [hset, Nat.one_mul, Nat.mod_eq_of_lt (by omega)]
    rfl

theorem gfTurn_spec (a b : UInt8) {p : UInt32} (hp : p.toNat < 256) {i : Nat} (hi : i < 8) :
    (gfTurn a b p (UInt32.ofNat i)).toNat < 256 ∧
      BinaryPoly.valueAt gfTwo 8 (gfTurn a b p (UInt32.ofNat i)).toNat =
        gfTwo * BinaryPoly.valueAt gfTwo 8 p.toNat +
          if b.toNat.testBit i then element a else 0 := by
  rcases double_spec hp with ⟨hsmall, hvalue⟩
  unfold gfTurn
  rw [UInt32.toNat_xor, BinaryPoly.valueAt_xor gf256_char, hvalue, toNat_summand a b hi]
  by_cases hbit : b.toNat.testBit i
  · rw [if_pos hbit, if_pos hbit]
    exact ⟨Nat.xor_lt_two_pow (n := 8) hsmall (UInt8.toNat_lt a), rfl⟩
  · rw [if_neg hbit, if_neg hbit, BinaryPoly.valueAt_zero]
    refine ⟨?_, rfl⟩
    rw [Nat.xor_zero]
    exact hsmall

/-- The loop from bit `w - 1` down: each turn is a step of Horner's rule in the bits of `b`. -/
theorem gfTurns_spec (a b : UInt8) {w : Nat} (hw : w ≤ 8) {p : UInt32} (hp : p.toNat < 256) :
    (((List.range w).reverse.map UInt32.ofNat).foldl (gfTurn a b) p).toNat < 256 ∧
      BinaryPoly.valueAt gfTwo 8 (((List.range w).reverse.map UInt32.ofNat).foldl (gfTurn a b) p).toNat =
        gfTwo ^ w * BinaryPoly.valueAt gfTwo 8 p.toNat +
          BinaryPoly.valueAt gfTwo w b.toNat * element a := by
  induction w generalizing p with
  | zero =>
    refine ⟨hp, ?_⟩
    have hnone : BinaryPoly.valueAt gfTwo 0 b.toNat = 0 := rfl
    rw [hnone, zero_mul, add_zero, pow_zero, one_mul]
    rfl
  | succ w ih =>
    rcases gfTurn_spec a b hp (Nat.lt_of_succ_le hw) with ⟨hsmall, hvalue⟩
    rcases ih (Nat.le_of_succ_le hw) hsmall with ⟨hlast, hrest⟩
    rw [List.range_succ, List.reverse_append, List.reverse_singleton, List.singleton_append,
      List.map_cons, List.foldl_cons]
    refine ⟨hlast, ?_⟩
    rw [hrest, hvalue, BinaryPoly.valueAt_succ gfTwo w b.toNat]
    by_cases hbit : b.toNat.testBit w
    · rw [if_pos hbit, if_pos hbit]
      ring
    · rw [if_neg hbit, if_neg hbit]
      ring

theorem element_gfMultiply (a b : UInt8) : element (gfMultiply a b) = element a * element b := by
  rcases gfTurns_spec a b (w := 8) (p := 0) (Nat.le_refl 8) (by decide) with ⟨hsmall, hvalue⟩
  have hturns : (List.range 8).reverse.map UInt32.ofNat = [7, 6, 5, 4, 3, 2, 1, 0] := rfl
  rw [hturns] at hsmall hvalue
  rw [UInt32.toNat_zero, BinaryPoly.valueAt_zero, mul_zero, zero_add] at hvalue
  unfold gfMultiply
  conv_lhs => unfold element
  rw [UInt32.toNat_toUInt8, Nat.mod_eq_of_lt hsmall, hvalue]
  unfold element
  exact mul_comm _ _

/-! ## Blocks -/

theorem map_generatorStep (root : UInt8) (cs : Bytes) :
    (generatorStep root cs).map element = ReedSolomon.generatorStep (element root) (cs.map element) := by
  induction cs with
  | nil => rfl
  | cons c cs ih =>
    cases cs with
    | nil =>
      rw [generatorStep, List.map_singleton, element_gfMultiply]
      rfl
    | cons next rest =>
      rw [generatorStep, List.map_cons, ih, element_xor, element_gfMultiply]
      rfl

/-- A turn takes one factor more into the product. -/
theorem generatorTurn_spec {state : Bytes × UInt8} {degree i : Nat}
    (hproduct : state.1.map element = ReedSolomon.product gfTwo degree i)
    (hroot : element state.2 = gfTwo ^ i) :
    (generatorTurn state).1.map element = ReedSolomon.product gfTwo degree (i + 1) ∧
      element (generatorTurn state).2 = gfTwo ^ (i + 1) := by
  unfold generatorTurn
  constructor
  · rw [map_generatorStep, hproduct, hroot]
    rfl
  · rw [element_gfMultiply, hroot, element_two, pow_succ]

/-- The loop of `ReedSolomonGenerator` keeps the product of the factors so far and the next root. -/
theorem generatorTurns_spec (degree i : Nat) :
    let state := (List.range i).foldl (fun state _ => generatorTurn state)
      (List.replicate (degree - 1) 0 ++ [1], 1)
    state.1.map element = ReedSolomon.product gfTwo degree i ∧ element state.2 = gfTwo ^ i := by
  induction i with
  | zero =>
    constructor
    · rw [List.range_zero, List.foldl_nil, List.map_append, List.map_replicate, element_zero,
        List.map_singleton, element_one]
      rfl
    · rw [List.range_zero, List.foldl_nil, element_one, pow_zero]
  | succ i ih =>
    rw [List.range_succ, List.foldl_append, List.foldl_cons, List.foldl_nil]
    exact generatorTurn_spec ih.1 ih.2

theorem map_reedSolomonGenerator (degree : Nat) :
    (reedSolomonGenerator degree).map element = ReedSolomon.generator gfTwo degree :=
  (generatorTurns_spec degree degree).1

theorem map_remainderTurn (generator remainder : Bytes) (byte : UInt8) :
    (remainderTurn generator remainder byte).map element =
      ReedSolomon.feed (generator.map element) (remainder.map element) (element byte) := by
  have hhead : element (remainder.headD 0) = (remainder.map element).headD 0 := by
    cases remainder with
    | nil => exact element_zero
    | cons first rest => rfl
  have htail : (remainder.tail ++ [0]).map element = (remainder.map element).tail ++ [0] := by
    rw [List.map_append, List.map_tail, List.map_singleton, element_zero]
  unfold remainderTurn ReedSolomon.feed
  rw [← htail, ← hhead, List.map_zipWith, List.zipWith_map]
  simp only [element_xor, element_gfMultiply]

theorem map_reedSolomonRemainder (data generator : Bytes) :
    (reedSolomonRemainder data generator).map element =
      ReedSolomon.remainder (generator.map element) (data.map element) := by
  have hstart : List.replicate (generator.map element).length 0 =
      (List.replicate generator.length (0 : UInt8)).map element := by
    rw [List.map_replicate, element_zero, List.length_map]
  unfold reedSolomonRemainder ReedSolomon.remainder
  rw [List.foldl_map, hstart]
  symm
  apply List.foldl_hom
  intro remainder byte
  exact (map_remainderTurn generator remainder byte).symm

theorem length_reedSolomonRemainder {degree : Nat} (hdegree : 0 < degree) (data : Bytes) :
    (reedSolomonRemainder data (reedSolomonGenerator degree)).length = degree := by
  have hgenerator : (ReedSolomon.generator gfTwo degree).length = degree :=
    ReedSolomon.length_product gfTwo hdegree degree
  have hne : ReedSolomon.generator gfTwo degree ≠ [] := by
    rw [← List.length_pos_iff, hgenerator]
    exact hdegree
  have h := ReedSolomon.length_remainder hne (data.map element)
  rw [← map_reedSolomonGenerator, ← map_reedSolomonRemainder, List.length_map, map_reedSolomonGenerator,
    hgenerator] at h
  exact h

/-- A block vanishes at the powers of 2, one for each of its error correction codewords. -/
theorem blockAt_encoded {degree k : Nat} (hk : k < degree) (data : Bytes) :
    blockAt (gfTwo ^ k) (data ++ reedSolomonRemainder data (reedSolomonGenerator degree)) = 0 := by
  unfold blockAt
  rw [List.map_append, map_reedSolomonRemainder, map_reedSolomonGenerator]
  exact ReedSolomon.evalAt_codeword gf256_char gfTwo hk _

end Qr

end Deskhub
