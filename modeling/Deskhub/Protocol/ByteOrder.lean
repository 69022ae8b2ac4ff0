import Mathlib.Data.Nat.Bitwise
import Mathlib.Data.List.Basic

/-!
# Byte order

`PutU16 … GetU64`: integers as big-endian bytes. A pointer into a buffer is the
rest of the buffer from there on, so `GetU32(p + 4)` is `getU32 (p.drop 4)`.
-/

namespace Deskhub

/-- A string of bytes: a span, a vector or a `std::string` of the source. -/
abbrev Bytes := List UInt8

def putU16 (v : UInt16) : Bytes := [(v >>> 8).toUInt8, v.toUInt8]

def putU32 (v : UInt32) : Bytes :=
  [(v >>> 24).toUInt8, (v >>> 16).toUInt8, (v >>> 8).toUInt8, v.toUInt8]

def putU64 (v : UInt64) : Bytes := putU32 (v >>> 32).toUInt32 ++ putU32 v.toUInt32

def getU16 : Bytes → UInt16
  | a :: b :: _ => (a.toUInt16 <<< 8) ||| b.toUInt16
  | _ => 0

def getU32 : Bytes → UInt32
  | a :: b :: c :: d :: _ =>
      (a.toUInt32 <<< 24) ||| (b.toUInt32 <<< 16) ||| (c.toUInt32 <<< 8) ||| d.toUInt32
  | _ => 0

def getU64 (p : Bytes) : UInt64 := ((getU32 p).toUInt64 <<< 32) ||| (getU32 (p.drop 4)).toUInt64

/-- The byte at offset `i` of a pointer. -/
def byteAt (p : Bytes) (i : Nat) : UInt8 := p.getD i 0

@[simp] theorem length_putU16 (v : UInt16) : (putU16 v).length = 2 := rfl
@[simp] theorem length_putU32 (v : UInt32) : (putU32 v).length = 4 := rfl
@[simp] theorem length_putU64 (v : UInt64) : (putU64 v).length = 8 := rfl

/-- Joining a multiple of `2 ^ i` with something below it is an addition. -/
theorem or_eq_add_of_dvd {i x y : Nat} (hx : 2 ^ i ∣ x) (hy : y < 2 ^ i) : x ||| y = x + y := by
  obtain ⟨k, rfl⟩ := hx
  exact (Nat.two_pow_add_eq_or_of_lt hy k).symm

/-- Four bytes side by side, the highest first. -/
theorem join_bytes {a b c d : Nat} (hb : b < 256) (hc : c < 256) (hd : d < 256) :
    a * 2 ^ 24 ||| b * 2 ^ 16 ||| c * 2 ^ 8 ||| d = a * 2 ^ 24 + b * 2 ^ 16 + c * 2 ^ 8 + d := by
  have hab : a * 2 ^ 24 ||| b * 2 ^ 16 = a * 2 ^ 24 + b * 2 ^ 16 :=
    or_eq_add_of_dvd (i := 24) (by omega) (by omega)
  have habc : a * 2 ^ 24 + b * 2 ^ 16 ||| c * 2 ^ 8 = a * 2 ^ 24 + b * 2 ^ 16 + c * 2 ^ 8 :=
    or_eq_add_of_dvd (i := 16) (by omega) (by omega)
  rw [hab, habc]
  exact or_eq_add_of_dvd (i := 8) (by omega) (by omega)

@[simp] theorem getU16_putU16 (v : UInt16) (rest : Bytes) : getU16 (putU16 v ++ rest) = v := by
  apply UInt16.toNat_inj.mp
  have hv := UInt16.toNat_lt v
  have hhigh : ((v >>> 8).toUInt8.toUInt16 <<< 8).toNat = v.toNat / 256 * 256 := by
    simp [Nat.shiftLeft_eq, Nat.shiftRight_eq_div_pow]
    omega
  show ((v >>> 8).toUInt8.toUInt16 <<< 8 ||| v.toUInt8.toUInt16).toNat = v.toNat
  rw [UInt16.toNat_or, hhigh, UInt8.toNat_toUInt16, UInt16.toNat_toUInt8,
    or_eq_add_of_dvd (i := 8) (by omega) (by omega)]
  omega

@[simp] theorem getU32_putU32 (v : UInt32) (rest : Bytes) : getU32 (putU32 v ++ rest) = v := by
  apply UInt32.toNat_inj.mp
  have hv := UInt32.toNat_lt v
  have h24 : ((v >>> 24).toUInt8.toUInt32 <<< 24).toNat = v.toNat / 2 ^ 24 * 2 ^ 24 := by
    simp [Nat.shiftLeft_eq, Nat.shiftRight_eq_div_pow]
    omega
  have h16 : ((v >>> 16).toUInt8.toUInt32 <<< 16).toNat =
      v.toNat / 2 ^ 16 % 256 * 2 ^ 16 := by
    simp [Nat.shiftLeft_eq, Nat.shiftRight_eq_div_pow]
    omega
  have h8 : ((v >>> 8).toUInt8.toUInt32 <<< 8).toNat = v.toNat / 2 ^ 8 % 256 * 2 ^ 8 := by
    simp [Nat.shiftLeft_eq, Nat.shiftRight_eq_div_pow]
    omega
  show ((v >>> 24).toUInt8.toUInt32 <<< 24 ||| (v >>> 16).toUInt8.toUInt32 <<< 16 |||
    (v >>> 8).toUInt8.toUInt32 <<< 8 ||| v.toUInt8.toUInt32).toNat = v.toNat
  rw [UInt32.toNat_or, UInt32.toNat_or, UInt32.toNat_or, h24, h16, h8, UInt8.toNat_toUInt32,
    UInt32.toNat_toUInt8, join_bytes (by omega) (by omega) (by omega)]
  omega

@[simp] theorem getU64_putU64 (v : UInt64) (rest : Bytes) : getU64 (putU64 v ++ rest) = v := by
  have hlow : ((putU64 v) ++ rest).drop 4 = putU32 v.toUInt32 ++ rest := rfl
  have hhigh : (putU64 v) ++ rest = putU32 (v >>> 32).toUInt32 ++ (putU32 v.toUInt32 ++ rest) := by
    simp [putU64, List.append_assoc]
  have hv := UInt64.toNat_lt v
  have h32 : ((v >>> 32).toUInt32.toUInt64 <<< 32).toNat = v.toNat / 2 ^ 32 * 2 ^ 32 := by
    simp [Nat.shiftLeft_eq, Nat.shiftRight_eq_div_pow]
    omega
  unfold getU64
  rw [hlow, hhigh, getU32_putU32, getU32_putU32]
  apply UInt64.toNat_inj.mp
  rw [UInt64.toNat_or, h32, UInt32.toNat_toUInt64, UInt64.toNat_toUInt32,
    or_eq_add_of_dvd (i := 32) (by omega) (by omega)]
  omega

/-- Four bytes are put as they were got. -/
theorem putU32_getU32 (a b c d : UInt8) (rest : Bytes) :
    putU32 (getU32 (a :: b :: c :: d :: rest)) = [a, b, c, d] := by
  have ha := a.toNat_lt
  have hb := b.toNat_lt
  have hc := c.toNat_lt
  have hd := d.toNat_lt
  have h24 : (a.toUInt32 <<< 24).toNat = a.toNat * 2 ^ 24 := by
    simp [Nat.shiftLeft_eq]
    omega
  have h16 : (b.toUInt32 <<< 16).toNat = b.toNat * 2 ^ 16 := by
    simp [Nat.shiftLeft_eq]
    omega
  have h8 : (c.toUInt32 <<< 8).toNat = c.toNat * 2 ^ 8 := by
    simp [Nat.shiftLeft_eq]
    omega
  have hjoin : (getU32 (a :: b :: c :: d :: rest)).toNat =
      a.toNat * 2 ^ 24 + b.toNat * 2 ^ 16 + c.toNat * 2 ^ 8 + d.toNat := by
    show (a.toUInt32 <<< 24 ||| b.toUInt32 <<< 16 ||| c.toUInt32 <<< 8 ||| d.toUInt32).toNat = _
    rw [UInt32.toNat_or, UInt32.toNat_or, UInt32.toNat_or, h24, h16, h8, UInt8.toNat_toUInt32]
    exact join_bytes (by omega) (by omega) (by omega)
  generalize getU32 (a :: b :: c :: d :: rest) = v at hjoin
  have hbyte : ∀ (x : UInt32) (y : UInt8), x.toNat % 256 = y.toNat → x.toUInt8 = y := by
    intro x y hxy
    apply UInt8.toNat_inj.mp
    rw [UInt32.toNat_toUInt8, hxy]
  unfold putU32
  rw [hbyte (v >>> 24) a, hbyte (v >>> 16) b, hbyte (v >>> 8) c, hbyte v d]
  · omega
  · simp [Nat.shiftRight_eq_div_pow]
    omega
  · simp [Nat.shiftRight_eq_div_pow]
    omega
  · simp [Nat.shiftRight_eq_div_pow]
    omega

/-- Two bytes are put as they were got. -/
theorem putU16_getU16 (a b : UInt8) (rest : Bytes) : putU16 (getU16 (a :: b :: rest)) = [a, b] := by
  have ha := a.toNat_lt
  have hb := b.toNat_lt
  have hhigh : (a.toUInt16 <<< 8).toNat = a.toNat * 256 := by
    simp [Nat.shiftLeft_eq]
    omega
  have hjoin : (a.toUInt16 <<< 8 ||| b.toUInt16).toNat = a.toNat * 256 + b.toNat := by
    rw [UInt16.toNat_or, hhigh, UInt8.toNat_toUInt16]
    exact or_eq_add_of_dvd (i := 8) (by omega) (by omega)
  have hfirst : ((a.toUInt16 <<< 8 ||| b.toUInt16) >>> 8).toUInt8 = a := by
    apply UInt8.toNat_inj.mp
    rw [UInt16.toNat_toUInt8, UInt16.toNat_shiftRight, hjoin]
    simp [Nat.shiftRight_eq_div_pow]
    omega
  have hsecond : (a.toUInt16 <<< 8 ||| b.toUInt16).toUInt8 = b := by
    apply UInt8.toNat_inj.mp
    rw [UInt16.toNat_toUInt8, hjoin]
    omega
  show [((a.toUInt16 <<< 8 ||| b.toUInt16) >>> 8).toUInt8, (a.toUInt16 <<< 8 ||| b.toUInt16).toUInt8] = _
  rw [hfirst, hsecond]

theorem putU64_getU64 (a b c d e f g h : UInt8) (rest : Bytes) :
    putU64 (getU64 (a :: b :: c :: d :: e :: f :: g :: h :: rest)) = [a, b, c, d, e, f, g, h] := by
  have hhigh := putU32_getU32 a b c d (e :: f :: g :: h :: rest)
  have hlow := putU32_getU32 e f g h rest
  unfold getU64
  rw [show (a :: b :: c :: d :: e :: f :: g :: h :: rest).drop 4 = e :: f :: g :: h :: rest from rfl]
  generalize getU32 (a :: b :: c :: d :: e :: f :: g :: h :: rest) = x at hhigh ⊢
  generalize getU32 (e :: f :: g :: h :: rest) = y at hlow ⊢
  have hx := UInt32.toNat_lt x
  have hy := UInt32.toNat_lt y
  have hjoin : (x.toUInt64 <<< 32 ||| y.toUInt64).toNat = x.toNat * 2 ^ 32 + y.toNat := by
    have hshift : (x.toUInt64 <<< 32).toNat = x.toNat * 2 ^ 32 := by
      simp [Nat.shiftLeft_eq]
      omega
    rw [UInt64.toNat_or, hshift, UInt32.toNat_toUInt64]
    exact or_eq_add_of_dvd (i := 32) (by omega) (by omega)
  have hfirst : ((x.toUInt64 <<< 32 ||| y.toUInt64) >>> 32).toUInt32 = x := by
    apply UInt32.toNat_inj.mp
    rw [UInt64.toNat_toUInt32, UInt64.toNat_shiftRight, hjoin]
    simp [Nat.shiftRight_eq_div_pow]
    omega
  have hsecond : (x.toUInt64 <<< 32 ||| y.toUInt64).toUInt32 = y := by
    apply UInt32.toNat_inj.mp
    rw [UInt64.toNat_toUInt32, hjoin]
    omega
  unfold putU64
  rw [hfirst, hsecond, hhigh, hlow]
  rfl

end Deskhub
