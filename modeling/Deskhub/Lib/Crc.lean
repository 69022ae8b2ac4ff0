import Mathlib.Data.Nat.Bitwise
import Mathlib.Data.List.Basic
import Mathlib.Tactic.Positivity

/-!
# Reflected 32-bit cyclic redundancy codes

The code of a byte string, defined bit by bit for any polynomial, and the rule
that a table of 256 entries computes it byte by byte. The step is linear over
XOR, which is all the rule needs. It also loses nothing, so a burst of errors no
longer than the register is found.
-/

namespace Crc

/-- Take one bit: shift right, and add the polynomial when the bit was set. -/
def bitStep (poly c : UInt32) : UInt32 :=
  if c &&& 1 = 0 then c >>> 1 else poly ^^^ (c >>> 1)

/-- Take `n` bits. -/
def bitSteps (poly : UInt32) : Nat → UInt32 → UInt32
  | 0, c => c
  | n + 1, c => bitSteps poly n (bitStep poly c)

/-- Take a byte, lowest bit first. -/
def byteStep (poly c : UInt32) (b : UInt8) : UInt32 := bitSteps poly 8 (c ^^^ b.toUInt32)

/-- The register after a byte string. -/
def bytesStep (poly c : UInt32) (bytes : List UInt8) : UInt32 := bytes.foldl (byteStep poly) c

/-- The code of a byte string: the register starts as all ones and is inverted. -/
def code (poly : UInt32) (bytes : List UInt8) : UInt32 := ~~~ bytesStep poly 0xFFFFFFFF bytes

theorem bytesStep_append (poly c : UInt32) (xs ys : List UInt8) :
    bytesStep poly c (xs ++ ys) = bytesStep poly (bytesStep poly c xs) ys :=
  List.foldl_append

/-- The lowest bit is the remainder by two. -/
theorem and_one_toNat (c : UInt32) : (c &&& 1).toNat = c.toNat % 2 := by
  rw [UInt32.toNat_and]
  exact Nat.and_one_is_mod _

theorem and_one_cases (c : UInt32) : c &&& 1 = 0 ∨ c &&& 1 = 1 := by
  rcases Nat.mod_two_eq_zero_or_one c.toNat with h | h
  · exact Or.inl (UInt32.toNat_inj.mp ((and_one_toNat c).trans h))
  · exact Or.inr (UInt32.toNat_inj.mp ((and_one_toNat c).trans h))

theorem shiftRight_one_xor (x y : UInt32) : (x ^^^ y) >>> 1 = (x >>> 1) ^^^ (y >>> 1) :=
  UInt32.shiftRight_xor

/-- One step is linear. -/
theorem bitStep_xor (poly x y : UInt32) :
    bitStep poly (x ^^^ y) = bitStep poly x ^^^ bitStep poly y := by
  have hbit : (x ^^^ y) &&& 1 = (x &&& 1) ^^^ (y &&& 1) := by
    apply UInt32.toNat_inj.mp
    simp only [UInt32.toNat_and, UInt32.toNat_xor, Nat.and_xor_distrib_right]
  unfold bitStep
  rw [hbit, shiftRight_one_xor]
  rcases and_one_cases x with hx | hx
  · rcases and_one_cases y with hy | hy
    · simp [hx, hy]
    · -- the polynomial comes in through `y`
      simp only [hx, hy]
      show poly ^^^ (x >>> 1 ^^^ y >>> 1) = x >>> 1 ^^^ (poly ^^^ y >>> 1)
      rw [← UInt32.xor_assoc, UInt32.xor_comm poly, UInt32.xor_assoc]
  · rcases and_one_cases y with hy | hy
    · simp only [hx, hy]
      exact (UInt32.xor_assoc poly _ _).symm
    · -- the polynomial comes in twice and cancels
      simp only [hx, hy]
      show x >>> 1 ^^^ y >>> 1 = (poly ^^^ x >>> 1) ^^^ (poly ^^^ y >>> 1)
      rw [UInt32.xor_comm poly (x >>> 1), UInt32.xor_assoc, ← UInt32.xor_assoc poly poly]
      simp

theorem bitSteps_xor (poly : UInt32) (n : Nat) (x y : UInt32) :
    bitSteps poly n (x ^^^ y) = bitSteps poly n x ^^^ bitSteps poly n y := by
  induction n generalizing x y with
  | zero => rfl
  | succ n ih => simp only [bitSteps, bitStep_xor, ih]

/-- As long as the bits taken are zero, a step is a shift. -/
theorem bitSteps_eq_shift (poly : UInt32) (n : Nat) (c : UInt32)
    (h : c.toNat % 2 ^ n = 0) : (bitSteps poly n c).toNat = c.toNat / 2 ^ n := by
  induction n generalizing c with
  | zero => simp [bitSteps]
  | succ n ih =>
    have hdvd : 2 ^ (n + 1) ∣ c.toNat := Nat.dvd_of_mod_eq_zero h
    obtain ⟨k, hk⟩ := hdvd
    have heven : c &&& 1 = 0 := by
      apply UInt32.toNat_inj.mp
      rw [and_one_toNat, hk, Nat.pow_succ, Nat.mul_assoc, Nat.mul_left_comm]
      simp
    have hhalf : (c >>> 1).toNat = 2 ^ n * k := by
      rw [UInt32.toNat_shiftRight, hk]
      show (2 ^ (n + 1) * k) >>> 1 = 2 ^ n * k
      rw [Nat.shiftRight_one, Nat.pow_succ, Nat.mul_assoc, Nat.mul_left_comm]
      exact Nat.mul_div_cancel_left _ (by omega)
    have hstep : bitStep poly c = c >>> 1 := by simp [bitStep, heven]
    simp only [bitSteps, hstep]
    rw [ih (c >>> 1) (by rw [hhalf]; exact Nat.mul_mod_right _ _), hhalf, hk]
    rw [Nat.mul_div_cancel_left _ (by positivity), Nat.mul_div_cancel_left _ (by positivity)]

/-- What is left of a number without its lowest byte. -/
theorem xor_and_byte (n : Nat) : n ^^^ (n &&& 0xFF) = n / 2 ^ 8 * 2 ^ 8 := by
  have hshift : n / 2 ^ 8 * 2 ^ 8 = (n >>> 8) <<< 8 := by
    rw [Nat.shiftLeft_eq, Nat.shiftRight_eq_div_pow]
  rw [hshift]
  apply Nat.eq_of_testBit_eq
  intro i
  have hmask : Nat.testBit 0xFF i = decide (i < 8) := Nat.testBit_two_pow_sub_one 8 i
  rw [Nat.testBit_xor, Nat.testBit_and, hmask, Nat.testBit_shiftLeft, Nat.testBit_shiftRight]
  by_cases hi : i < 8
  · simp [hi]
  · have hback : 8 + (i - 8) = i := by omega
    simp [hi, hback, Nat.not_lt.mp hi]

/-- The table rule: a byte is taken by looking up the lowest byte of the register
and shifting the others. -/
theorem byteStep_eq_table (poly c : UInt32) (b : UInt8) :
    byteStep poly c b =
      bitSteps poly 8 ((c ^^^ b.toUInt32) &&& 0xFF) ^^^ (c >>> 8) := by
  have hhigh : ((c ^^^ b.toUInt32) ^^^ ((c ^^^ b.toUInt32) &&& 0xFF)).toNat =
      (c ^^^ b.toUInt32).toNat / 2 ^ 8 * 2 ^ 8 := by
    rw [UInt32.toNat_xor _ (_ &&& _), UInt32.toNat_and]
    exact xor_and_byte _
  have hshift : bitSteps poly 8 ((c ^^^ b.toUInt32) ^^^ ((c ^^^ b.toUInt32) &&& 0xFF)) =
      c >>> 8 := by
    apply UInt32.toNat_inj.mp
    rw [bitSteps_eq_shift _ _ _ (by rw [hhigh]; exact Nat.mul_mod_left _ _), hhigh,
      Nat.mul_div_cancel _ (by positivity), UInt32.toNat_xor]
    -- the byte lies below the bits that stay
    have hbyte : b.toUInt32.toNat >>> 8 = 0 := by
      have := UInt8.toNat_lt b
      rw [UInt8.toNat_toUInt32, Nat.shiftRight_eq_div_pow]
      omega
    show _ = c.toNat >>> 8
    rw [← Nat.shiftRight_eq_div_pow, Nat.shiftRight_xor_distrib, hbyte, Nat.xor_zero]
  have hsplit : c ^^^ b.toUInt32 =
      ((c ^^^ b.toUInt32) &&& 0xFF) ^^^
        ((c ^^^ b.toUInt32) ^^^ ((c ^^^ b.toUInt32) &&& 0xFF)) := by
    rw [UInt32.xor_comm (c ^^^ b.toUInt32) (_ &&& _), ← UInt32.xor_assoc]
    simp
  calc byteStep poly c b = bitSteps poly 8 (c ^^^ b.toUInt32) := rfl
    _ = bitSteps poly 8 (((c ^^^ b.toUInt32) &&& 0xFF) ^^^
          ((c ^^^ b.toUInt32) ^^^ ((c ^^^ b.toUInt32) &&& 0xFF))) := by rw [← hsplit]
    _ = bitSteps poly 8 ((c ^^^ b.toUInt32) &&& 0xFF) ^^^ (c >>> 8) := by
      rw [bitSteps_xor, hshift]

/-! ## Bursts -/

theorem bitSteps_add (poly : UInt32) (m n : Nat) (c : UInt32) :
    bitSteps poly (m + n) c = bitSteps poly n (bitSteps poly m c) := by
  induction m generalizing c with
  | zero => rw [Nat.zero_add]; rfl
  | succ m ih => rw [Nat.succ_add, bitSteps, ih, bitSteps]

/-- With the highest bit of the polynomial set, a step loses nothing. -/
theorem bitStep_eq_zero {poly c : UInt32} (hpoly : 2 ^ 31 ≤ poly.toNat) (h : bitStep poly c = 0) :
    c = 0 := by
  have hhalf : (c >>> 1).toNat = c.toNat / 2 := by
    rw [UInt32.toNat_shiftRight]
    exact Nat.shiftRight_one _
  have hlt := c.toNat_lt
  unfold bitStep at h
  rcases and_one_cases c with heven | hodd
  · rw [if_pos heven] at h
    have hzero := congrArg UInt32.toNat h
    have hbit := congrArg UInt32.toNat heven
    rw [hhalf] at hzero
    rw [and_one_toNat] at hbit
    apply UInt32.toNat_inj.mp
    show c.toNat = 0
    change c.toNat / 2 = 0 at hzero
    change c.toNat % 2 = 0 at hbit
    omega
  · -- the polynomial is too large to be cancelled
    rw [if_neg (by rw [hodd]; decide)] at h
    have heq : poly = c >>> 1 := by
      calc poly = poly ^^^ (c >>> 1) ^^^ (c >>> 1) := by
            rw [UInt32.xor_assoc, UInt32.xor_self, UInt32.xor_zero]
        _ = c >>> 1 := by rw [h, UInt32.zero_xor]
    have hnat := congrArg UInt32.toNat heq
    rw [hhalf] at hnat
    omega

theorem bitStep_injective {poly : UInt32} (hpoly : 2 ^ 31 ≤ poly.toNat) {x y : UInt32}
    (h : bitStep poly x = bitStep poly y) : x = y := by
  have hzero : bitStep poly (x ^^^ y) = 0 := by rw [bitStep_xor, h, UInt32.xor_self]
  exact UInt32.xor_eq_zero_iff.mp (bitStep_eq_zero hpoly hzero)

theorem bitSteps_injective {poly : UInt32} (hpoly : 2 ^ 31 ≤ poly.toNat) {n : Nat} {x y : UInt32}
    (h : bitSteps poly n x = bitSteps poly n y) : x = y := by
  induction n generalizing x y with
  | zero => exact h
  | succ n ih => exact bitStep_injective hpoly (ih h)

/-- The register before a byte string is determined by the one after it. -/
theorem bytesStep_injective {poly : UInt32} (hpoly : 2 ^ 31 ≤ poly.toNat) {x y : UInt32}
    {bytes : List UInt8} (h : bytesStep poly x bytes = bytesStep poly y bytes) : x = y := by
  induction bytes generalizing x y with
  | nil => exact h
  | cons b bytes ih => exact (UInt32.xor_left_inj b.toUInt32).mp (bitSteps_injective hpoly (ih h))

/-- Bytes as one word, the first byte lowest. -/
def word : List UInt8 → UInt32
  | [] => 0
  | b :: bs => b.toUInt32 ^^^ (word bs <<< 8)

theorem toNat_shiftLeft_byte (x : UInt32) : (x <<< 8).toNat = x.toNat * 2 ^ 8 % 2 ^ 32 := by
  rw [UInt32.toNat_shiftLeft]
  show x.toNat <<< 8 % 2 ^ 32 = _
  rw [Nat.shiftLeft_eq]

theorem word_lt (bs : List UInt8) : (word bs).toNat < 2 ^ (8 * bs.length) := by
  induction bs with
  | nil => decide
  | cons b bs ih =>
    have hexp : 2 ^ (8 * (b :: bs).length) = 2 ^ (8 * bs.length) * 2 ^ 8 := by
      rw [List.length_cons, Nat.mul_succ, Nat.pow_add]
    rw [word, UInt32.toNat_xor]
    apply Nat.xor_lt_two_pow
    · rw [UInt8.toNat_toUInt32, hexp]
      have hbyte := b.toNat_lt
      have hpos := Nat.two_pow_pos (8 * bs.length)
      calc b.toNat < 1 * 2 ^ 8 := by omega
        _ ≤ 2 ^ (8 * bs.length) * 2 ^ 8 := Nat.mul_le_mul_right _ hpos
    · rw [toNat_shiftLeft_byte, hexp]
      exact Nat.lt_of_le_of_lt (Nat.mod_le _ _) (Nat.mul_lt_mul_of_pos_right ih (by decide))

/-- A word of three bytes comes back when its place above a byte is shifted out. -/
theorem bitSteps_word (poly : UInt32) {bs : List UInt8} (h : bs.length ≤ 3) :
    bitSteps poly 8 (word bs <<< 8) = word bs := by
  have hlt : (word bs).toNat < 2 ^ 24 :=
    Nat.lt_of_lt_of_le (word_lt bs) (Nat.pow_le_pow_right (by decide) (by omega))
  have hshift : (word bs <<< 8).toNat = (word bs).toNat * 2 ^ 8 := by
    rw [toNat_shiftLeft_byte]
    omega
  apply UInt32.toNat_inj.mp
  rw [bitSteps_eq_shift poly 8 _ (by rw [hshift]; exact Nat.mul_mod_left _ _), hshift]
  exact Nat.mul_div_cancel _ (by decide)

/-- Up to four bytes are taken like the word they make. -/
theorem bytesStep_eq_word (poly c : UInt32) {bs : List UInt8} (h : bs.length ≤ 4) :
    bytesStep poly c bs = bitSteps poly (8 * bs.length) (c ^^^ word bs) := by
  induction bs generalizing c with
  | nil =>
    show c = c ^^^ 0
    exact UInt32.xor_zero.symm
  | cons b bs ih =>
    have hshort : bs.length ≤ 3 := Nat.le_of_succ_le_succ h
    have hlen : 8 * (b :: bs).length = 8 + 8 * bs.length := by
      rw [List.length_cons]
      omega
    calc bytesStep poly c (b :: bs) = bytesStep poly (byteStep poly c b) bs := rfl
      _ = bitSteps poly (8 * bs.length) (byteStep poly c b ^^^ word bs) := ih _ (by omega)
      _ = bitSteps poly (8 * bs.length)
            (bitSteps poly 8 (c ^^^ b.toUInt32) ^^^ bitSteps poly 8 (word bs <<< 8)) := by
        rw [bitSteps_word poly hshort, byteStep]
      _ = bitSteps poly (8 * (b :: bs).length) (c ^^^ word (b :: bs)) := by
        rw [← bitSteps_xor, ← bitSteps_add, hlen, word, UInt32.xor_assoc]

/-- Up to four bytes are determined by their word. -/
theorem word_injective {xs ys : List UInt8} (hlen : xs.length = ys.length) (hmost : xs.length ≤ 4)
    (h : word xs = word ys) : xs = ys := by
  induction xs generalizing ys with
  | nil => exact (List.length_eq_zero_iff.mp hlen.symm).symm
  | cons x xs ih =>
    cases ys with
    | nil => cases hlen
    | cons y ys =>
      have hlow : ∀ (b : UInt8) (bs : List UInt8), (word (b :: bs)).toNat % 2 ^ 8 = b.toNat := by
        intro b bs
        have hbyte := b.toNat_lt
        rw [word, UInt32.toNat_xor, Nat.xor_mod_two_pow, toNat_shiftLeft_byte, UInt8.toNat_toUInt32,
          show (word bs).toNat * 2 ^ 8 % 2 ^ 32 % 2 ^ 8 = 0 by omega, Nat.xor_zero]
        exact Nat.mod_eq_of_lt hbyte
      have hhead : x = y := by
        apply UInt8.toNat_inj.mp
        rw [← hlow x xs, ← hlow y ys, h]
      have hlen' : xs.length = ys.length := Nat.succ.inj hlen
      have hmost' : xs.length ≤ 3 := Nat.le_of_succ_le_succ hmost
      rw [hhead, word, word] at h
      have hshift := (UInt32.xor_right_inj y.toUInt32).mp h
      have htail : word xs = word ys := by
        rw [← bitSteps_word 0 hmost', hshift, bitSteps_word 0 (hlen' ▸ hmost')]
      rw [hhead, ih hlen' (by omega) htail]

/-- A burst is found: strings that differ in four consecutive bytes at most have different codes. -/
theorem eq_of_code_eq {poly : UInt32} (hpoly : 2 ^ 31 ≤ poly.toNat) {front xs ys back : List UInt8}
    (hlen : xs.length = ys.length) (hmost : xs.length ≤ 4)
    (h : code poly (front ++ xs ++ back) = code poly (front ++ ys ++ back)) : xs = ys := by
  have hend := UInt32.not_inj.mp h
  rw [bytesStep_append, bytesStep_append poly _ (front ++ ys), bytesStep_append, bytesStep_append]
    at hend
  have hburst := bytesStep_injective hpoly hend
  have hmost' : ys.length ≤ 4 := hlen ▸ hmost
  rw [bytesStep_eq_word poly _ hmost, bytesStep_eq_word poly _ hmost', hlen] at hburst
  exact word_injective hlen hmost ((UInt32.xor_right_inj _).mp (bitSteps_injective hpoly hburst))

end Crc
