import Deskhub.Lib.BitStrings
import Deskhub.Qr.Gf256

/-!
# Reading a QR code

What the standard asks of a reader, apart from the program: which modules of a version are
function modules, in which order the others are read, where the format stands, how codewords go
back into blocks and what the data part says. `readQr` reads a symbol that needs no correction.
-/

namespace Deskhub

namespace Qr

open BitStrings

/-- The standard's coordinates of the alignment pattern centers, by version. -/
def kAlignmentCoordinates : List (List Nat) :=
  [[], [], [6, 18], [6, 22], [6, 26], [6, 30], [6, 34],
    [6, 22, 38], [6, 24, 42], [6, 26, 46], [6, 28, 50], [6, 30, 54], [6, 32, 58], [6, 34, 62],
    [6, 26, 46, 66], [6, 26, 48, 70], [6, 26, 50, 74], [6, 30, 54, 78], [6, 30, 56, 82],
    [6, 30, 58, 86], [6, 34, 62, 90],
    [6, 28, 50, 72, 94], [6, 26, 50, 74, 98], [6, 30, 54, 78, 102], [6, 28, 54, 80, 106],
    [6, 32, 58, 84, 110], [6, 30, 58, 86, 114], [6, 34, 62, 90, 118],
    [6, 26, 50, 74, 98, 122], [6, 30, 54, 78, 102, 126], [6, 26, 52, 78, 104, 130],
    [6, 30, 56, 82, 108, 134], [6, 34, 60, 86, 112, 138], [6, 30, 58, 86, 114, 142],
    [6, 34, 62, 90, 118, 146],
    [6, 30, 54, 78, 102, 126, 150], [6, 24, 50, 76, 102, 128, 154], [6, 28, 54, 80, 106, 132, 158],
    [6, 32, 58, 84, 110, 136, 162], [6, 26, 54, 82, 110, 138, 166], [6, 30, 58, 86, 114, 142, 170]]

/-- The standard's number of codewords of a symbol, by version. -/
def kTotalCodewords : List Nat :=
  [0, 26, 44, 70, 100, 134, 172, 196, 242, 292, 346, 404, 466, 532, 581, 655, 733, 815, 901, 991,
    1085, 1156, 1258, 1364, 1474, 1588, 1706, 1828, 1921, 2051, 2185, 2323, 2465, 2611, 2761, 2876,
    3034, 3196, 3362, 3532, 3706]

/-- The standard's format words of level M, one for each mask. -/
def kFormatWordsLevelM : List Nat :=
  [0x5412, 0x5125, 0x5E7C, 0x5B4B, 0x45F9, 0x40CE, 0x4F97, 0x4AA0]

/-! ## The modules of a version -/

def versionOfSize (size : Nat) : Option Nat :=
  if 21 ≤ size ∧ size ≤ 177 ∧ size % 4 = 1 then some ((size - 17) / 4) else none

def sizeOf (version : Nat) : Nat := 17 + 4 * version

/-- Every pair of coordinates, but those where a finder pattern stands. -/
def alignmentCenters (version : Nat) : List (Nat × Nat) :=
  let coordinates := kAlignmentCoordinates.getD version []
  let last := sizeOf version - 7
  (coordinates.flatMap fun x => coordinates.map fun y => (x, y)).filter fun c =>
    c ≠ (6, 6) ∧ c ≠ (6, last) ∧ c ≠ (last, 6)

/-- Whether a module is one of the five by five around a center. -/
def InAlignment (center : Nat × Nat) (x y : Nat) : Prop :=
  (center.1 ≤ x + 2 ∧ x ≤ center.1 + 2) ∧ center.2 ≤ y + 2 ∧ y ≤ center.2 + 2

instance (center : Nat × Nat) (x y : Nat) : Decidable (InAlignment center x y) :=
  inferInstanceAs (Decidable (_ ∧ _))

/-- A finder pattern, its separator and the format beside it. -/
def InCorner (size x y : Nat) : Prop :=
  (x < 9 ∧ y < 9) ∨ (size - 8 ≤ x ∧ y < 9) ∨ (x < 9 ∧ size - 8 ≤ y)

instance (size x y : Nat) : Decidable (InCorner size x y) :=
  inferInstanceAs (Decidable (_ ∨ _))

/-- The two copies of the version, which versions from 7 on have. -/
def InVersionArea (version x y : Nat) : Prop :=
  7 ≤ version ∧
    ((sizeOf version - 11 ≤ x ∧ x < sizeOf version - 8 ∧ y < 6) ∨
      (x < 6 ∧ sizeOf version - 11 ≤ y ∧ y < sizeOf version - 8))

instance (version x y : Nat) : Decidable (InVersionArea version x y) :=
  inferInstanceAs (Decidable (_ ∧ _))

/-- The modules that carry no data. -/
def FunctionModule (version x y : Nat) : Prop :=
  InCorner (sizeOf version) x y ∨ (x = 6 ∨ y = 6) ∨
    (∃ center ∈ alignmentCenters version, InAlignment center x y) ∨ InVersionArea version x y

instance (version x y : Nat) : Decidable (FunctionModule version x y) :=
  inferInstanceAs (Decidable (_ ∨ _))

/-- The right column of a pair; the pairs leave the timing column out. -/
def pairColumn (size pair : Nat) : Nat :=
  if 6 < size - 1 - 2 * pair then size - 1 - 2 * pair else size - 2 - 2 * pair

/-- The pairs of columns from the right, upwards and downwards in turn. -/
def scanOrder (version : Nat) : List (Nat × Nat) :=
  (List.range (2 * version + 8)).flatMap fun pair =>
    (List.range (sizeOf version)).flatMap fun step =>
      let y := if pair % 2 = 0 then sizeOf version - 1 - step else step
      [(pairColumn (sizeOf version) pair, y), (pairColumn (sizeOf version) pair - 1, y)]

def dataPositions (version : Nat) : List (Nat × Nat) :=
  (scanOrder version).filter fun p => ¬FunctionModule version p.1 p.2

/-! ## Bits and codewords -/

def codewordsOf : Nat → List Bool → Bytes
  | 0, _ => []
  | count + 1, bs => UInt8.ofNat (ofBits (bs.take 8)) :: codewordsOf count (bs.drop 8)

/-- The data modules in their order, the mask taken off. -/
def readBits (code : QrCode) (version mask : Nat) : List Bool :=
  (dataPositions version).map fun p => xor (code.dark p.1 p.2) (maskBit mask p.1 p.2)

/-- Where bit `i` of the copy of the format at the top left stands. -/
def formatTopLeft (i : Nat) : Nat × Nat :=
  if i < 6 then (8, i) else if i < 8 then (8, i + 1) else if i = 8 then (7, 8) else (14 - i, 8)

/-- Where bit `i` of the other copy stands. -/
def formatBeside (size i : Nat) : Nat × Nat :=
  if i < 8 then (size - 1 - i, 8) else (8, size - 15 + i)

def formatWord (code : QrCode) (place : Nat → Nat × Nat) : Nat :=
  ofBits ((List.range 15).reverse.map fun i => code.dark (place i).1 (place i).2)

/-- The mask that a format word of level M names. -/
def maskOfFormat (word : Nat) : Option Nat := kFormatWordsLevelM.idxOf? word

/-! ## Blocks -/

section Blocks

variable (version : Nat) (codewords : Bytes)

def readShortBlocks : Nat := eccBlockCount version - kTotalCodewords.getD version 0 % eccBlockCount version

def readShortLength : Nat :=
  kTotalCodewords.getD version 0 / eccBlockCount version - eccCodewordsPerBlock version

/-- The data of a block: a codeword of every row, and one more where the block is a long one. -/
def blockData (j : Nat) : Bytes :=
  ((List.range (readShortLength version)).map fun i =>
    byteAt codewords (i * eccBlockCount version + j)) ++
  if j < readShortBlocks version then []
  else [byteAt codewords (readShortLength version * eccBlockCount version + (j - readShortBlocks version))]

/-- Its error correction codewords, from the rows behind the data. -/
def blockEcc (j : Nat) : Bytes :=
  (List.range (eccCodewordsPerBlock version)).map fun i =>
    byteAt codewords (kTotalCodewords.getD version 0 - eccCodewordsPerBlock version * eccBlockCount version +
      (i * eccBlockCount version + j))

def dataPart : Bytes := (List.range (eccBlockCount version)).flatMap (blockData version codewords)

end Blocks

/-! ## The text -/

def countWidth (version : Nat) : Nat := if version < 10 then 8 else 16

/-- A data part in byte mode: the indicator, the count and the bytes. -/
def readText (version : Nat) (data : Bytes) : Option Bytes :=
  let bs := joined 8 (data.map UInt8.toNat)
  let count := ofBits ((bs.drop 4).take (countWidth version))
  if ofBits (bs.take 4) = 4 ∧ 4 + countWidth version + 8 * count ≤ bs.length then
    some (codewordsOf count (bs.drop (4 + countWidth version)))
  else none

/-- The codewords of a symbol under a mask. -/
def readCodewords (code : QrCode) (version mask : Nat) : Bytes :=
  codewordsOf (kTotalCodewords.getD version 0) (readBits code version mask)

def readQr (code : QrCode) : Option Bytes := do
  let version ← versionOfSize code.size
  let word := formatWord code formatTopLeft
  if word ≠ formatWord code (formatBeside code.size) then none
  else
    let mask ← maskOfFormat word
    readText version (dataPart version (readCodewords code version mask))

end Qr

end Deskhub
