import Deskhub.Lib.BitStrings
import Deskhub.Lib.EmulationPrevention
import Deskhub.Protocol.ByteOrder
import Mathlib.Data.Nat.Size

/-!
# The bit writer

`BitWriter`: bits gathered into bytes and written with emulation prevention. What it has written is
the protected form of the bytes of its bits.
-/

namespace Deskhub

open BitStrings

structure BitWriter where
  out : Bytes := []
  cur : UInt8 := 0
  bitCount : Nat := 0
  zeroRun : Nat := 0
deriving DecidableEq, Repr

namespace BitWriter

def writeByteEP (w : BitWriter) (b : UInt8) : BitWriter :=
  let w := if 2 ≤ w.zeroRun ∧ b ≤ 3 then { w with out := w.out ++ [0x03], zeroRun := 0 } else w
  { w with out := w.out ++ [b], zeroRun := if b = 0 then w.zeroRun + 1 else 0 }

/-- `Bit`. -/
def bit (w : BitWriter) (b : Bool) : BitWriter :=
  let w := { w with cur := (w.cur <<< 1) ||| b.toUInt8, bitCount := w.bitCount + 1 }
  if w.bitCount = 8 then { w.writeByteEP w.cur with cur := 0, bitCount := 0 } else w

/-- The loop of `Flush` and `Trailing`; seven turns are enough. -/
def pad : Nat → BitWriter → BitWriter
  | 0, w => w
  | fuel + 1, w => if w.bitCount ≠ 0 then pad fuel (w.bit false) else w

def flush (w : BitWriter) : BitWriter := w.pad 7

def startNal (w : BitWriter) (nalRefIdc nalType : UInt8) : BitWriter :=
  let w := w.flush
  let header : UInt8 := ((nalRefIdc &&& 3) <<< 5) ||| (nalType &&& 0x1F)
  { w with out := w.out ++ [0, 0, 0, 1, header], zeroRun := 0 }

/-- `U`: the highest bit first. -/
def u (w : BitWriter) : Nat → Nat → BitWriter
  | 0, _ => w
  | bits + 1, value => (w.bit (value.testBit bits)).u bits value

/-- `UE`: as many zeros as the number above by one has bits behind its first, then the number. -/
def ue (w : BitWriter) (value : Nat) : BitWriter :=
  let v := value + 1
  let bits := v.size
  (w.u (bits - 1) 0).u bits v

def trailing (w : BitWriter) : BitWriter := (w.bit true).pad 7

end BitWriter

/-- The bits of bytes, the highest of each first. -/
def bitsOf (bytes : Bytes) : List Bool := joined 8 (bytes.map UInt8.toNat)

@[simp] theorem length_bitsOf (bytes : Bytes) : (bitsOf bytes).length = 8 * bytes.length := by
  unfold bitsOf
  rw [length_joined, List.length_map]

theorem bitsOf_append (xs ys : Bytes) : bitsOf (xs ++ ys) = bitsOf xs ++ bitsOf ys := by
  unfold bitsOf
  rw [List.map_append, joined_append]

theorem bitsOf_singleton (b : UInt8) : bitsOf [b] = bits 8 b.toNat := List.append_nil _

/-- The bit at a place of a byte string. -/
theorem getElem?_bitsOf {bytes : Bytes} {pos : Nat} {byte : UInt8} (h : bytes[pos / 8]? = some byte) :
    (bitsOf bytes)[pos]? = some (byte.toNat.testBit (7 - pos % 8)) := by
  rcases List.getElem?_eq_some_iff.mp h with ⟨hlt, rfl⟩
  have hi : pos / 8 < (bytes.map UInt8.toNat).length := by
    rw [List.length_map]
    exact hlt
  have hbit := getElem?_joined hi (Nat.mod_lt pos (by decide : 0 < 8))
  rw [Nat.div_add_mod, List.getElem_map] at hbit
  exact hbit

namespace BitWriter

/-- The writer has written `bs` behind `head`. -/
def Holds (w : BitWriter) (head : Bytes) (bs : List Bool) : Prop :=
  w.bitCount < 8 ∧ ∃ full : Bytes, w.out = head ++ Emulation.protect 0 full ∧
    w.zeroRun = Emulation.zerosOf 0 full ∧ bs = bitsOf full ++ bits w.bitCount w.cur.toNat

section Steps

variable {w : BitWriter} {head : Bytes} {bs : List Bool}

theorem writeByteEP_eq (w : BitWriter) (b : UInt8) :
    w.writeByteEP b = { w with
      out := w.out ++ Emulation.protect w.zeroRun [b]
      zeroRun := Emulation.zerosOf w.zeroRun [b] } := by
  unfold writeByteEP
  by_cases hshort : 2 ≤ w.zeroRun ∧ b ≤ 3
  · rw [if_pos hshort, Emulation.protect_of_short hshort, Emulation.zerosOf, if_pos hshort]
    show BitWriter.mk (w.out ++ [3] ++ [b]) _ _ _ = _
    rw [List.append_assoc]
    rfl
  · rw [if_neg hshort, Emulation.protect_of_not hshort, Emulation.zerosOf, if_neg hshort]
    rfl

/-- Shifting in a bit. -/
theorem bits_push_bit (cur : UInt8) (b : Bool) {count : Nat} (h : count < 8) :
    bits (count + 1) ((cur <<< 1) ||| b.toUInt8).toNat = bits count cur.toNat ++ [b] := by
  have hvalue : ((cur <<< 1) ||| b.toUInt8).toNat = (cur.toNat * 2 ^ 1 + b.toNat) % 2 ^ 8 := by
    have hshift : (cur <<< 1).toNat = 2 ^ 1 * (cur.toNat % 2 ^ 7) := by
      rw [UInt8.toNat_shiftLeft]
      show cur.toNat <<< 1 % 2 ^ 8 = _
      rw [Nat.shiftLeft_eq]
      omega
    have hbit : b.toUInt8.toNat = b.toNat := by
      cases b
      · rfl
      · rfl
    have hlt := b.toNat_lt
    rw [UInt8.toNat_or, hshift, hbit, or_eq_add_of_dvd (Nat.dvd_mul_right _ _) hlt]
    omega
  rw [hvalue, bits_mod (by omega), bits_push count cur.toNat (by cases b <;> decide)]
  cases b
  · rfl
  · rfl

theorem Holds.bit (h : w.Holds head bs) (b : Bool) : (w.bit b).Holds head (bs ++ [b]) := by
  rcases h with ⟨hcount, full, hout, hzeros, hbits⟩
  have hpush := bits_push_bit w.cur b hcount
  unfold BitWriter.bit
  dsimp only
  by_cases hfull : w.bitCount + 1 = 8
  · rw [if_pos hfull, writeByteEP_eq]
    refine ⟨Nat.succ_pos 7, full ++ [(w.cur <<< 1) ||| b.toUInt8], ?_, ?_, ?_⟩
    · show w.out ++ Emulation.protect w.zeroRun _ = _
      rw [hout, hzeros, Emulation.protect_append, List.append_assoc]
    · show Emulation.zerosOf w.zeroRun _ = _
      rw [hzeros, Emulation.zerosOf_append]
    · rw [hfull] at hpush
      show bs ++ [b] = _ ++ []
      rw [List.append_nil, bitsOf_append, bitsOf_singleton, hpush, hbits, List.append_assoc]
  · rw [if_neg hfull]
    refine ⟨by show w.bitCount + 1 < 8; omega, full, hout, hzeros, ?_⟩
    show bs ++ [b] = bitsOf full ++ bits (w.bitCount + 1) ((w.cur <<< 1) ||| b.toUInt8).toNat
    rw [hpush, hbits, List.append_assoc]

theorem Holds.u (h : w.Holds head bs) (count value : Nat) :
    (w.u count value).Holds head (bs ++ bits count value) := by
  induction count generalizing w bs with
  | zero =>
    rw [BitWriter.u, bits, List.append_nil]
    exact h
  | succ count ih =>
    have hrest := ih (h.bit (value.testBit count))
    rw [List.append_assoc] at hrest
    exact hrest

end Steps

end BitWriter

/-- The bits that `UE` writes. -/
def ueBits (value : Nat) : List Bool :=
  List.replicate ((value + 1).size - 1) false ++ bits (value + 1).size (value + 1)

namespace BitWriter

section Units

variable {w : BitWriter} {head : Bytes} {bs : List Bool}

theorem Holds.ue (h : w.Holds head bs) (value : Nat) :
    (w.ue value).Holds head (bs ++ ueBits value) := by
  have hzeros := h.u ((value + 1).size - 1) 0
  rw [bits_zero] at hzeros
  have hboth := hzeros.u (value + 1).size (value + 1)
  rw [List.append_assoc] at hboth
  exact hboth

theorem bitCount_bit (w : BitWriter) (b : Bool) :
    (w.bit b).bitCount = if w.bitCount + 1 = 8 then 0 else w.bitCount + 1 := by
  unfold BitWriter.bit
  dsimp only
  split
  · rfl
  · rfl

/-- The zeros that fill the last byte. -/
theorem Holds.pad {fuel : Nat} (h : w.Holds head bs)
    (hfuel : w.bitCount = 0 ∨ 8 ≤ w.bitCount + fuel) :
    (w.pad fuel).bitCount = 0 ∧
      ∃ k ≤ fuel, (w.pad fuel).Holds head (bs ++ List.replicate k false) := by
  induction fuel generalizing w bs with
  | zero =>
    have hlt := h.1
    refine ⟨by show w.bitCount = 0; omega, 0, Nat.le_refl 0, ?_⟩
    rw [List.replicate_zero, List.append_nil]
    exact h
  | succ fuel ih =>
    rw [BitWriter.pad]
    by_cases hopen : w.bitCount ≠ 0
    · rw [if_pos hopen]
      have hcount := bitCount_bit w false
      have hnext : (w.bit false).bitCount = 0 ∨ 8 ≤ (w.bit false).bitCount + fuel := by
        rw [hcount]
        split
        · exact .inl rfl
        · omega
      rcases ih (h.bit false) hnext with ⟨hdone, k, hk, hpadded⟩
      refine ⟨hdone, k + 1, Nat.succ_le_succ hk, ?_⟩
      rw [List.append_assoc] at hpadded
      exact hpadded
    · rw [if_neg hopen]
      refine ⟨not_not.mp hopen, 0, Nat.zero_le _, ?_⟩
      rw [List.replicate_zero, List.append_nil]
      exact h

/-- What is written once the last byte is closed. -/
theorem Holds.trailing (h : w.Holds head bs) :
    ∃ (full : Bytes) (k : Nat), k < 8 ∧ w.trailing.out = head ++ Emulation.protect 0 full ∧
      bitsOf full = bs ++ true :: List.replicate k false := by
  have hlt := h.1
  have hcount := bitCount_bit w true
  have hfuel : (w.bit true).bitCount = 0 ∨ 8 ≤ (w.bit true).bitCount + 7 := by
    rw [hcount]
    split
    · exact .inl rfl
    · omega
  rcases (h.bit true).pad hfuel with ⟨hdone, k, hk, -, full, hout, -, hbits⟩
  refine ⟨full, k, Nat.lt_succ_of_le hk, hout, ?_⟩
  rw [hdone] at hbits
  rw [show bitsOf full = bitsOf full ++ bits 0 _ from (List.append_nil _).symm, ← hbits,
    List.append_assoc]
  rfl

/-- A unit that is begun holds no bits yet. -/
theorem holds_startNal (nalRefIdc nalType : UInt8) :
    (startNal {} nalRefIdc nalType).Holds
      [0, 0, 0, 1, ((nalRefIdc &&& 3) <<< 5) ||| (nalType &&& 0x1F)] [] :=
  ⟨Nat.succ_pos 7, [], rfl, rfl, rfl⟩

end Units

end BitWriter

/-- Bytes whose bits end with a one and less than eight zeros do not end in a zero. -/
theorem getLast?_ne_zero {full : Bytes} {bs : List Bool} {k : Nat} (hk : k < 8)
    (h : bitsOf full = bs ++ true :: List.replicate k false) :
    ∃ b, full.getLast? = some b ∧ b ≠ 0 := by
  rcases List.eq_nil_or_concat' full with rfl | ⟨front, b, rfl⟩
  · have hlen := congrArg List.length h
    simp at hlen
  refine ⟨b, List.getLast?_concat, ?_⟩
  rintro rfl
  rw [bitsOf_append, bitsOf_singleton, UInt8.toNat_zero, bits_zero] at h
  -- the bit k places from the end
  have hbit := congrArg (fun l : List Bool => l.reverse[k]?) h
  simp only [List.reverse_append, List.reverse_cons, List.reverse_replicate] at hbit
  rw [List.getElem?_append_left (by simpa using hk), List.append_assoc,
    List.getElem?_append_right (by simp), List.getElem?_replicate, if_pos hk, List.length_replicate,
    Nat.sub_self] at hbit
  cases hbit

end Deskhub
