import Deskhub.Lib.Crc
import Deskhub.Protocol.ByteOrder

/-!
# The transfer checksum

`Crc32`: the table and the byte loop, and that they compute CRC-32.
-/

namespace Deskhub

def kCrc32Poly : UInt32 := 0xEDB88320

/-- The loop of `MakeTable` over the bits of one entry. -/
def makeEntry : Nat → UInt32 → UInt32
  | 0, c => c
  | bit + 1, c => makeEntry bit (if c &&& 1 ≠ 0 then kCrc32Poly ^^^ (c >>> 1) else c >>> 1)

/-- `MakeTable`. -/
def kCrc32Table : List UInt32 := (List.range 256).map (fun i => makeEntry 8 (UInt32.ofNat i))

structure Crc32 where
  state : UInt32 := 0xFFFFFFFF
deriving DecidableEq, Repr

namespace Crc32

def update (crc : Crc32) (bytes : Bytes) : Crc32 :=
  { state := bytes.foldl
      (fun c b => kCrc32Table.getD ((c ^^^ b.toUInt32) &&& 0xFF).toNat 0 ^^^ (c >>> 8)) crc.state }

def value (crc : Crc32) : UInt32 := ~~~ crc.state

/-- `Reset`: the register of a fresh checksum. -/
def reset : Crc32 := {}

end Crc32

/-- The CRC-32 of a byte string, bit by bit. -/
def crc32 (bytes : Bytes) : UInt32 := Crc.code kCrc32Poly bytes

theorem makeEntry_eq (n : Nat) (c : UInt32) : makeEntry n c = Crc.bitSteps kCrc32Poly n c := by
  induction n generalizing c with
  | zero => rfl
  | succ n ih =>
    simp only [makeEntry, Crc.bitSteps, Crc.bitStep, ih]
    congr 1
    by_cases h : c &&& 1 = 0
    · simp [h]
    · simp [h]

theorem kCrc32Table_getD (i : UInt32) (h : i.toNat < 256) :
    kCrc32Table.getD i.toNat 0 = Crc.bitSteps kCrc32Poly 8 i := by
  simp [kCrc32Table, List.getD_eq_getElem?_getD, h, makeEntry_eq]

namespace Crc32

/-- The table step takes a byte. -/
theorem tableStep_eq (c : UInt32) (b : UInt8) :
    kCrc32Table.getD ((c ^^^ b.toUInt32) &&& 0xFF).toNat 0 ^^^ (c >>> 8) =
      Crc.byteStep kCrc32Poly c b := by
  have hlow : ((c ^^^ b.toUInt32) &&& 0xFF).toNat < 256 := by
    rw [UInt32.toNat_and]
    exact Nat.and_lt_two_pow _ (n := 8) (by decide)
  rw [kCrc32Table_getD _ hlow, Crc.byteStep_eq_table]

theorem update_state (crc : Crc32) (bytes : Bytes) :
    (crc.update bytes).state = Crc.bytesStep kCrc32Poly crc.state bytes := by
  simp only [update, tableStep_eq]
  rfl

/-- Two updates are one update with both strings. -/
theorem update_append (crc : Crc32) (xs ys : Bytes) :
    (crc.update xs).update ys = crc.update (xs ++ ys) := by
  simp only [update, List.foldl_append]

@[simp] theorem update_nil (crc : Crc32) : crc.update [] = crc := rfl

/-- The checksum of a string is its CRC-32. -/
theorem value_update (bytes : Bytes) : (reset.update bytes).value = crc32 bytes := by
  show ~~~ (reset.update bytes).state = _
  rw [update_state]
  rfl

/-- The check value of CRC-32, over the digits from 1 to 9. -/
example : (reset.update [49, 50, 51, 52, 53, 54, 55, 56, 57]).value = 0xCBF43926 := by
  decide +kernel

end Crc32

end Deskhub
