import Deskhub.Protocol.ByteOrder
import Mathlib.Data.List.Basic

/-!
# QR codes

`EncodeQr`: a text as the modules of a QR symbol of error correction level M. The text becomes data
codewords, these become blocks with their error correction codewords, and the blocks are placed
around the function patterns under the mask with the least penalty.
-/

namespace Deskhub

namespace Qr

def kQrMinVersion : Nat := 1
def kQrMaxVersion : Nat := 40

def kEccCodewordsPerBlockLevelM : List Nat :=
  [0, 10, 16, 26, 18, 24, 16, 18, 22, 22, 26, 30, 22, 22, 24, 24, 28, 28, 26, 26, 26,
    26, 28, 28, 28, 28, 28, 28, 28, 28, 28, 28, 28, 28, 28, 28, 28, 28, 28, 28, 28]

def kEccBlocksLevelM : List Nat :=
  [0, 1, 1, 1, 2, 2, 4, 4, 4, 5, 5, 5, 8, 9, 9, 10, 10, 11, 13, 14, 16,
    17, 17, 18, 20, 21, 23, 25, 26, 28, 29, 31, 33, 35, 37, 38, 40, 43, 45, 47, 49]

def kModulesPerVersionStep : Nat := 4
def kVersionOneSize : Nat := 21
def kBitsPerCodeword : Nat := 8

def kModeIndicatorBits : Nat := 4
def kByteModeIndicator : Nat := 4
def kShortCharCountBits : Nat := 8
def kLongCharCountBits : Nat := 16
def kLastVersionWithShortCharCount : Nat := 9
def kMaxTerminatorBits : Nat := 4
def kPadCodewords : List Nat := [0xEC, 0x11]

def kFinderSize : Nat := 7
def kFinderWithSeparator : Nat := 8
def kTimingIndex : Nat := 6
def kAlignmentRadius : Nat := 2
def kFormatAreaLength : Nat := 9
def kFirstVersionWithVersionInfo : Nat := 7
def kVersionInfoLength : Nat := 6
def kVersionInfoWidth : Nat := 3
def kVersionInfoOffset : Nat := 11
def kAlignmentStepVersion32 : Nat := 26
def kAlignmentStepFixedVersion : Nat := 32

def kMaskBitsInFormat : Nat := 3
def kFormatEccBits : Nat := 10
def kFormatGeneratorPolynomial : UInt32 := 0x537
def kFormatXorMask : UInt32 := 0x5412
def kLevelMFormatBits : UInt32 := 0
def kFormatBitCount : Nat := 15
def kFormatBitsBesideTopRightFinder : Nat := 8

def kFormatBitPositionsTopLeft : List (Nat × Nat) :=
  [(8, 0), (8, 1), (8, 2), (8, 3), (8, 4), (8, 5), (8, 7), (8, 8), (7, 8), (5, 8), (4, 8), (3, 8),
    (2, 8), (1, 8), (0, 8)]

def kVersionEccBits : Nat := 12
def kVersionGeneratorPolynomial : UInt32 := 0x1F25
def kVersionBitCount : Nat := 18

def kMaskCount : Nat := 8
def kGf256Modulus : UInt32 := 0x11D

def kMinPenalizedRun : Nat := 5
def kRunPenaltyBase : Nat := 3
def kBlockPenalty : Nat := 3
def kFinderLikePenalty : Nat := 40
def kBalancePenaltyStep : Nat := 10
def kFinderLikeLightMargin : Nat := 4
def kFinderLikeRun : Bytes := [1, 0, 1, 1, 1, 0, 1]

/-! ## Sizes -/

def symbolSize (version : Nat) : Nat :=
  kVersionOneSize + (version - kQrMinVersion) * kModulesPerVersionStep

def alignmentPatternCount (version : Nat) : Nat :=
  if version = kQrMinVersion then 0 else version / 7 + 2

def rawDataModules (version : Nat) : Nat :=
  let size := symbolSize version
  let modules := size * size
  let modules := modules - 3 * kFinderWithSeparator * kFinderWithSeparator
  let modules := modules - 2 * (size - 2 * kFinderWithSeparator)
  let modules := modules - (2 * kFormatBitCount + 1)
  let alignCount := alignmentPatternCount version
  let alignSide := 2 * kAlignmentRadius + 1
  let modules :=
    if 0 < alignCount then
      modules - (alignCount * alignCount - 3) * alignSide * alignSide + (alignCount - 2) * 2 * alignSide
    else modules
  if kFirstVersionWithVersionInfo ≤ version then modules - 2 * kVersionBitCount else modules

def totalCodewords (version : Nat) : Nat := rawDataModules version / kBitsPerCodeword

def eccCodewordsPerBlock (version : Nat) : Nat := kEccCodewordsPerBlockLevelM.getD version 0

def eccBlockCount (version : Nat) : Nat := kEccBlocksLevelM.getD version 0

def eccCodewords (version : Nat) : Nat := eccCodewordsPerBlock version * eccBlockCount version

def dataCodewords (version : Nat) : Nat := totalCodewords version - eccCodewords version

def charCountBits (version : Nat) : Nat :=
  if version ≤ kLastVersionWithShortCharCount then kShortCharCountBits else kLongCharCountBits

def dataCapacityBytes (version : Nat) : Nat :=
  let headerBits := kModeIndicatorBits + charCountBits version
  (dataCodewords version * kBitsPerCodeword - headerBits) / kBitsPerCodeword

def chooseVersion (byteCount : Nat) : Option Nat :=
  (List.range' kQrMinVersion kQrMaxVersion).find? fun version => byteCount ≤ dataCapacityBytes version

/-! ## Data codewords -/

structure BitWriter where
  bytes : Bytes := []
  bitCount : Nat := 0
deriving DecidableEq

namespace BitWriter

/-- The last byte with a bit set in it. -/
def orLast (bytes : Bytes) (bit : UInt8) : Bytes :=
  match bytes.getLast? with
  | none => bytes
  | some last => bytes.dropLast ++ [last ||| bit]

def appendBit (w : BitWriter) (one : Bool) : BitWriter :=
  let bytes := if w.bitCount % kBitsPerCodeword = 0 then w.bytes ++ [0] else w.bytes
  let bytes :=
    if one then orLast bytes (0x80 >>> UInt8.ofNat (w.bitCount % kBitsPerCodeword)) else bytes
  { bytes := bytes, bitCount := w.bitCount + 1 }

/-- `Append`: the low bits of a value, the highest first. -/
def append (w : BitWriter) (value : Nat) : Nat → BitWriter
  | 0 => w
  | bits + 1 => append (w.appendBit (value.testBit bits)) value bits

end BitWriter

/-- The loop that fills the last byte; seven turns are enough. -/
def fillByte : Nat → BitWriter → BitWriter
  | 0, w => w
  | fuel + 1, w =>
    if w.bitCount % kBitsPerCodeword ≠ 0 then fillByte fuel (w.appendBit false) else w

/-- The loop that pads up to the capacity; a turn for every codeword is enough. -/
def padTo (capacityBits : Nat) : Nat → Nat → BitWriter → BitWriter
  | 0, _, w => w
  | fuel + 1, padIndex, w =>
    if w.bitCount < capacityBits then
      padTo capacityBits fuel ((padIndex + 1) % kPadCodewords.length)
        (w.append (kPadCodewords.getD padIndex 0) kBitsPerCodeword)
    else w

def appendDataCodewords (text : Bytes) (version : Nat) : Bytes :=
  let capacityBits := dataCodewords version * kBitsPerCodeword
  let writer : BitWriter := {}
  let writer := writer.append kByteModeIndicator kModeIndicatorBits
  let writer := writer.append text.length (charCountBits version)
  let writer := text.foldl (fun writer c => writer.append c.toNat kBitsPerCodeword) writer
  let terminatorBits := min kMaxTerminatorBits (capacityBits - writer.bitCount)
  let writer := writer.append 0 terminatorBits
  let writer := fillByte kBitsPerCodeword writer
  (padTo capacityBits (dataCodewords version) 0 writer).bytes

/-! ## Error correction -/

/-- One turn of the loop of `GfMultiply`. -/
def gfTurn (a b : UInt8) (product i : UInt32) : UInt32 :=
  let product := (product <<< 1) ^^^ ((product >>> 7) * kGf256Modulus)
  product ^^^ (((b.toUInt32 >>> i) &&& 1) * a.toUInt32)

def gfMultiply (a b : UInt8) : UInt8 :=
  (([7, 6, 5, 4, 3, 2, 1, 0] : List UInt32).foldl (gfTurn a b) 0).toUInt8

/-- The inner loop of `ReedSolomonGenerator`. -/
def generatorStep (root : UInt8) : Bytes → Bytes
  | [] => []
  | [c] => [gfMultiply c root]
  | c :: next :: rest => (gfMultiply c root ^^^ next) :: generatorStep root (next :: rest)

/-- One turn of the outer loop of `ReedSolomonGenerator`: the generator and the next root. -/
def generatorTurn (state : Bytes × UInt8) : Bytes × UInt8 :=
  (generatorStep state.2 state.1, gfMultiply state.2 2)

def reedSolomonGenerator (degree : Nat) : Bytes :=
  ((List.range degree).foldl (fun state _ => generatorTurn state)
    (List.replicate (degree - 1) 0 ++ [1], 1)).1

/-- One turn of the loop of `ReedSolomonRemainder`. -/
def remainderTurn (generator remainder : Bytes) (byte : UInt8) : Bytes :=
  let factor := byte ^^^ remainder.headD 0
  List.zipWith (fun kept g => kept ^^^ gfMultiply g factor) (remainder.tail ++ [0]) generator

def reedSolomonRemainder (data generator : Bytes) : Bytes :=
  data.foldl (remainderTurn generator) (List.replicate generator.length 0)

/-- The loop over the blocks: what is left of the data, and the blocks from `i` on. A short block
gets a padding slot behind its data. -/
def blocksFrom (shortBlockCount shortDataLength : Nat) (generator : Bytes) :
    Nat → Nat → Bytes → List Bytes
  | 0, _, _ => []
  | count + 1, i, data =>
    let dataLength := shortDataLength + if i < shortBlockCount then 0 else 1
    let block := data.take dataLength
    let ecc := reedSolomonRemainder block generator
    (block ++ (if i < shortBlockCount then [0] else []) ++ ecc) ::
      blocksFrom shortBlockCount shortDataLength generator count (i + 1) (data.drop dataLength)

def interleaveBlocks (data : Bytes) (version : Nat) : Bytes :=
  let blockCount := eccBlockCount version
  let eccLength := eccCodewordsPerBlock version
  let total := totalCodewords version
  let shortBlockCount := blockCount - total % blockCount
  let shortBlockLength := total / blockCount
  let shortDataLength := shortBlockLength - eccLength
  let generator := reedSolomonGenerator eccLength
  let blocks := blocksFrom shortBlockCount shortDataLength generator blockCount 0 data
  (List.range (blocks.getD 0 []).length).flatMap fun i =>
    (List.range blockCount).flatMap fun j =>
      let paddingSlot := i = shortDataLength ∧ j < shortBlockCount
      if paddingSlot then [] else [byteAt (blocks.getD j []) i]

/-! ## The canvas -/

structure Canvas where
  size : Nat
  modules : Bytes
  function : Bytes
deriving DecidableEq

namespace Canvas

def blank (size : Nat) : Canvas :=
  { size, modules := List.replicate (size * size) 0, function := List.replicate (size * size) 0 }

def index (c : Canvas) (x y : Nat) : Nat := y * c.size + x

def dark (c : Canvas) (x y : Nat) : Bool := byteAt c.modules (c.index x y) ≠ 0

def isFunction (c : Canvas) (x y : Nat) : Bool := byteAt c.function (c.index x y) ≠ 0

def paint (c : Canvas) (x y : Nat) (dark : Bool) : Canvas :=
  { c with modules := c.modules.set (c.index x y) (if dark then 1 else 0) }

def paintFunction (c : Canvas) (x y : Nat) (dark : Bool) : Canvas :=
  let c := c.paint x y dark
  { c with function := c.function.set (c.index x y) 1 }

def flip (c : Canvas) (x y : Nat) : Canvas :=
  { c with modules := c.modules.set (c.index x y) (byteAt c.modules (c.index x y) ^^^ 1) }

/-- `PaintFunction` for each of the modules, in their order. -/
def paintFunctions (c : Canvas) (modules : List (Nat × Nat × Bool)) : Canvas :=
  modules.foldl (fun c m => c.paintFunction m.1 m.2.1 m.2.2) c

end Canvas

/-! ## Function patterns: the modules each loop paints, in its order -/

def finderModules (size centerX centerY : Nat) : List (Nat × Nat × Bool) :=
  let reach := kFinderSize / 2 + 1
  (List.range (2 * reach + 1)).flatMap fun (i : Nat) =>
    (List.range (2 * reach + 1)).flatMap fun (j : Nat) =>
      let dy : Int := i - reach
      let dx : Int := j - reach
      let x : Int := centerX + dx
      let y : Int := centerY + dy
      if x < 0 ∨ y < 0 ∨ (size : Int) ≤ x ∨ (size : Int) ≤ y then []
      else
        let distance := max dx.natAbs dy.natAbs
        [(x.toNat, y.toNat, distance ≠ 2 ∧ distance ≠ reach)]

def alignmentModules (centerX centerY : Nat) : List (Nat × Nat × Bool) :=
  (List.range (2 * kAlignmentRadius + 1)).flatMap fun (i : Nat) =>
    (List.range (2 * kAlignmentRadius + 1)).map fun (j : Nat) =>
      let dy : Int := i - kAlignmentRadius
      let dx : Int := j - kAlignmentRadius
      (((centerX : Int) + dx).toNat, ((centerY : Int) + dy).toNat, max dx.natAbs dy.natAbs ≠ 1)

def alignmentPositions (version : Nat) : List Nat :=
  let count := alignmentPatternCount version
  if count = 0 then []
  else
    let size := symbolSize version
    let step :=
      if version = kAlignmentStepFixedVersion then kAlignmentStepVersion32
      else (version * kModulesPerVersionStep + count * 2 + 1) / (count * 2 - 2) * 2
    kTimingIndex ::
      (List.range' 1 (count - 1)).map fun i => size - kFinderSize - (count - 1 - i) * step

def allAlignmentModules (version : Nat) : List (Nat × Nat × Bool) :=
  let positions := alignmentPositions version
  let last := positions.length - 1
  (List.range positions.length).flatMap fun i =>
    (List.range positions.length).flatMap fun j =>
      let overlapsFinder := (i = 0 ∧ j = 0) ∨ (i = 0 ∧ j = last) ∨ (i = last ∧ j = 0)
      if overlapsFinder then []
      else alignmentModules (positions.getD i 0) (positions.getD j 0)

def timingModules (size : Nat) : List (Nat × Nat × Bool) :=
  (List.range size).flatMap fun i => [(kTimingIndex, i, i % 2 = 0), (i, kTimingIndex, i % 2 = 0)]

def formatAreaModules (size : Nat) : List (Nat × Nat × Bool) :=
  ((List.range kFormatAreaLength).flatMap fun i =>
    if i = kTimingIndex then []
    else [(kFinderWithSeparator, i, false), (i, kFinderWithSeparator, false)]) ++
  (List.range kFinderWithSeparator).flatMap fun i =>
    [(size - 1 - i, kFinderWithSeparator, false), (kFinderWithSeparator, size - 1 - i, false)]

def versionAreaModules (size version : Nat) : List (Nat × Nat × Bool) :=
  if version < kFirstVersionWithVersionInfo then []
  else
    (List.range kVersionInfoLength).flatMap fun i =>
      (List.range kVersionInfoWidth).flatMap fun j =>
        [(size - kVersionInfoOffset + j, i, false), (i, size - kVersionInfoOffset + j, false)]

def functionPatterns (size version : Nat) : List (Nat × Nat × Bool) :=
  let finderCenter := kFinderSize / 2
  timingModules size ++ finderModules size finderCenter finderCenter ++
    finderModules size (size - 1 - finderCenter) finderCenter ++
    finderModules size finderCenter (size - 1 - finderCenter) ++ allAlignmentModules version ++
    formatAreaModules size ++ versionAreaModules size version

def placeFunctionPatterns (canvas : Canvas) (version : Nat) : Canvas :=
  canvas.paintFunctions (functionPatterns canvas.size version)

/-! ## Placement -/

/-- The right columns of the pairs, from `right` on. -/
def rightColumns : Nat → Nat → List Nat
  | 0, _ => []
  | fuel + 1, right =>
    if right < 1 then []
    else
      let right := if right = kTimingIndex then kTimingIndex - 1 else right
      right :: rightColumns fuel (right - 2)

/-- The modules of a pair of columns, in the order of the loops. -/
def columnPair (size right : Nat) : List (Nat × Nat) :=
  let upward := (right + 1) &&& 2 = 0
  (List.range size).flatMap fun step =>
    let y := if upward then size - 1 - step else step
    [(right, y), (right - 1, y)]

def placementOrder (size : Nat) : List (Nat × Nat) :=
  (rightColumns size (size - 1)).flatMap (columnPair size)

/-- The bit of the codewords at a place, counted from the first. -/
def codewordBit (codewords : Bytes) (bit : Nat) : Bool :=
  (byteAt codewords (bit / kBitsPerCodeword)).toNat.testBit (7 - bit % kBitsPerCodeword)

/-- One turn of the innermost loop of `PlaceData`: the canvas, and how many bits are placed. -/
def placeModule (codewords : Bytes) (state : Canvas × Nat) (at_ : Nat × Nat) : Canvas × Nat :=
  if state.1.isFunction at_.1 at_.2 ∨ codewords.length * kBitsPerCodeword ≤ state.2 then state
  else (state.1.paint at_.1 at_.2 (codewordBit codewords state.2), state.2 + 1)

def placeData (canvas : Canvas) (codewords : Bytes) : Canvas :=
  ((placementOrder canvas.size).foldl (placeModule codewords) (canvas, 0)).1

/-! ## Masks -/

def maskBit (mask x y : Nat) : Bool :=
  match mask with
  | 0 => (x + y) % 2 = 0
  | 1 => y % 2 = 0
  | 2 => x % 3 = 0
  | 3 => (x + y) % 3 = 0
  | 4 => (x / 3 + y / 2) % 2 = 0
  | 5 => x * y % 2 + x * y % 3 = 0
  | 6 => (x * y % 2 + x * y % 3) % 2 = 0
  | _ => ((x + y) % 2 + x * y % 3) % 2 = 0

/-- The modules row by row, as most loops visit them. -/
def rowOrder (size : Nat) : List (Nat × Nat) :=
  (List.range size).flatMap fun y => (List.range size).map fun x => (x, y)

/-- The body of the loops of `ApplyMask`. -/
def maskModule (mask : Nat) (c : Canvas) (p : Nat × Nat) : Canvas :=
  if !c.isFunction p.1 p.2 && maskBit mask p.1 p.2 then c.flip p.1 p.2 else c

def applyMask (canvas : Canvas) (mask : Nat) : Canvas :=
  (rowOrder canvas.size).foldl (maskModule mask) canvas

def runPenalty (line : Bytes) : Nat :=
  ((List.range' 1 line.length).foldl (fun (state : Nat × Nat) i =>
    let (penalty, runStart) := state
    if i < line.length ∧ byteAt line i = byteAt line runStart then (penalty, runStart)
    else
      let runLength := i - runStart
      (if kMinPenalizedRun ≤ runLength then penalty + (kRunPenaltyBase + runLength - kMinPenalizedRun)
        else penalty, i)) (0, 0)).1

def allLight (line : Bytes) (first last : Int) : Bool :=
  ((line.take last.toNat).drop first.toNat).all fun m => m = 0

def findFinderLikeRun (line : Bytes) (first : Nat) : Option Nat :=
  (List.range' first (line.length + 1 - (first + kFinderLikeRun.length))).find? fun start =>
    (line.drop start).take kFinderLikeRun.length = kFinderLikeRun

/-- The loop of `FinderLikePenalty` from a run on; every turn goes on behind the last one. -/
def finderLikeFrom (line : Bytes) : Nat → Option Nat → Nat
  | 0, _ => 0
  | _, none => 0
  | fuel + 1, some start =>
    let last := start + kFinderLikeRun.length
    let lightBefore := allLight line (start - kFinderLikeLightMargin) start
    let lightAfter := allLight line last (last + kFinderLikeLightMargin)
    if start = 0 ∨ start + kFinderLikeRun.length = line.length ∨ lightBefore ∨ lightAfter then
      kFinderLikePenalty + finderLikeFrom line fuel (findFinderLikeRun line last)
    else finderLikeFrom line fuel (findFinderLikeRun line (start + kFinderLikeLightMargin))

def finderLikePenalty (line : Bytes) : Nat :=
  finderLikeFrom line (line.length + 1) (findFinderLikeRun line 0)

def blockPenalty (c : Canvas) : Nat :=
  (((List.range' 1 (c.size - 1)).flatMap fun y => (List.range' 1 (c.size - 1)).map fun x =>
    let dark := c.dark x y
    let uniform :=
      c.dark (x - 1) y = dark ∧ c.dark x (y - 1) = dark ∧ c.dark (x - 1) (y - 1) = dark
    if uniform then kBlockPenalty else 0)).sum

def balancePenalty (c : Canvas) : Nat :=
  let darkCount := (rowOrder c.size).countP fun p => c.dark p.1 p.2
  let total := c.size * c.size
  let deviationSteps := ((darkCount * 20 : Int) - (total * 10 : Int)).natAbs / total
  deviationSteps * kBalancePenaltyStep

def penaltyScore (c : Canvas) : Nat :=
  ((List.range c.size).map fun i =>
    let row := (List.range c.size).map fun j => if c.dark j i then (1 : UInt8) else 0
    let column := (List.range c.size).map fun j => if c.dark i j then (1 : UInt8) else 0
    runPenalty row + runPenalty column + (finderLikePenalty row + finderLikePenalty column)).sum +
  blockPenalty c + balancePenalty c

/-- One turn of the loop of `ChooseMask`: the canvas, the best mask so far and its penalty. -/
def tryMask (state : Canvas × Nat × Nat) (mask : Nat) : Canvas × Nat × Nat :=
  let (canvas, bestMask, bestPenalty) := state
  let masked := applyMask canvas mask
  let penalty := penaltyScore masked
  let canvas := applyMask masked mask
  if mask = 0 ∨ penalty < bestPenalty then (canvas, mask, penalty) else (canvas, bestMask, bestPenalty)

/-- `ChooseMask`: the canvas under the mask, and the mask. -/
def chooseMask (canvas : Canvas) : Canvas × Nat :=
  let (canvas, bestMask, _) := (List.range kMaskCount).foldl tryMask (canvas, 0, 0)
  (applyMask canvas bestMask, bestMask)

/-! ## Format and version -/

def bchRemainder (value : UInt32) (eccBits : Nat) (generator : UInt32) : UInt32 :=
  (List.range eccBits).foldl (fun remainder _ =>
    (remainder <<< 1) ^^^ ((remainder >>> UInt32.ofNat (eccBits - 1)) * generator)) value

def formatBits (mask : Nat) : UInt32 :=
  let data := (kLevelMFormatBits <<< UInt32.ofNat kMaskBitsInFormat) ||| UInt32.ofNat mask
  let remainder := bchRemainder data kFormatEccBits kFormatGeneratorPolynomial
  ((data <<< UInt32.ofNat kFormatEccBits) ||| remainder) ^^^ kFormatXorMask

/-- Where the bits of the second copy of the format stand. -/
def formatPositionBeside (size i : Nat) : Nat × Nat :=
  if i < kFormatBitsBesideTopRightFinder then (size - 1 - i, kFinderWithSeparator)
  else (kFinderWithSeparator, size - kFormatBitCount + i)

def formatModules (size mask : Nat) : List (Nat × Nat × Bool) :=
  let bits := formatBits mask
  ((List.range kFormatBitCount).flatMap fun i =>
    let dark := bits.toNat.testBit i
    let topLeft := kFormatBitPositionsTopLeft.getD i (0, 0)
    let beside := formatPositionBeside size i
    [(topLeft.1, topLeft.2, dark), (beside.1, beside.2, dark)]) ++
  [(kFinderWithSeparator, size - kFinderWithSeparator, true)]

def writeFormatBits (canvas : Canvas) (mask : Nat) : Canvas :=
  canvas.paintFunctions (formatModules canvas.size mask)

def versionBits (version : Nat) : UInt32 :=
  let remainder := bchRemainder (UInt32.ofNat version) kVersionEccBits kVersionGeneratorPolynomial
  (UInt32.ofNat version <<< UInt32.ofNat kVersionEccBits) ||| remainder

def versionModules (size version : Nat) : List (Nat × Nat × Bool) :=
  if version < kFirstVersionWithVersionInfo then []
  else
    (List.range kVersionBitCount).flatMap fun i =>
      let dark := (versionBits version).toNat.testBit i
      let a := size - kVersionInfoOffset + i % kVersionInfoWidth
      let b := i / kVersionInfoWidth
      [(a, b, dark), (b, a, dark)]

def writeVersionBits (canvas : Canvas) (version : Nat) : Canvas :=
  canvas.paintFunctions (versionModules canvas.size version)

end Qr

open Qr

structure QrCode where
  size : Nat := 0
  modules : Bytes := []
deriving DecidableEq

/-- `QrCode::Dark`. -/
def QrCode.dark (code : QrCode) (x y : Int) : Bool :=
  if x < 0 ∨ y < 0 ∨ (code.size : Int) ≤ x ∨ (code.size : Int) ≤ y then false
  else byteAt code.modules (y.toNat * code.size + x.toNat) ≠ 0

def encodeQr (text : Bytes) : Option QrCode :=
  if text = [] then none
  else
    match chooseVersion text.length with
    | none => none
    | some version =>
      let codewords := interleaveBlocks (appendDataCodewords text version) version
      let canvas := Canvas.blank (symbolSize version)
      let canvas := placeFunctionPatterns canvas version
      let canvas := placeData canvas codewords
      let (canvas, mask) := chooseMask canvas
      let canvas := writeFormatBits canvas mask
      let canvas := writeVersionBits canvas version
      some { size := canvas.size, modules := canvas.modules }

end Deskhub
