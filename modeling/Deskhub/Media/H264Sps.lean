import Deskhub.Media.AnnexB
import Deskhub.Media.BitReader

/-!
# The rewrite of sequence parameter sets

`ParseUpToVuiFlag`, and the rewrite that gives a parameter set without VUI one that reorders no
frames, in one unit and in a stream.
-/

namespace Deskhub

open BitReader

namespace H264Sps

def kNalTypeSps : UInt8 := 7
def kMaxMvLengthLog2 : Nat := 15

def isHighProfile (profileIdc : Nat) : Bool :=
  profileIdc ∈ [44, 83, 86, 100, 110, 118, 122, 128, 134, 135, 138, 139, 244]

/-- `ToRbsp`. -/
def toRbsp (nalPayload : Bytes) : Bytes := Emulation.strip 0 nalPayload

/-- A step that is taken under a condition. -/
def onlyIf {α : Type} (p : Prop) [Decidable p] (m : Reading α) : Reading Unit :=
  if p then do
    let _ ← m
    return ()
  else return ()

/-- The next value of a scaling list; zero stays. -/
def nextScale (last next : Int) : Reading Int :=
  if next ≠ 0 then do
    let delta ← se
    return ((last + delta).tmod 256 + 256).tmod 256
  else return next

/-- The loop of `SkipScalingList`. -/
def scalingEntries : Nat → Int → Int → Reading Unit
  | 0, _, _ => return ()
  | entries + 1, last, next => do
    let next ← nextScale last next
    scalingEntries entries (if next ≠ 0 then next else last) next

def skipScalingList (entries : Nat) : Reading Unit := scalingEntries entries 8 8

/-- The loop over the scaling lists from the `i`-th on. -/
def scalingLists : Nat → Nat → Reading Unit
  | 0, _ => return ()
  | lists + 1, i => do
    let present ← u 1
    onlyIf (present ≠ 0) (skipScalingList (if i < 6 then 16 else 64))
    scalingLists lists (i + 1)

/-- The fields that only the high profiles have. -/
def highProfileFields : Reading Unit := do
  let chromaFormatIdc ← ue
  onlyIf (chromaFormatIdc = 3) (u 1)
  let _ ← ue
  let _ ← ue
  let _ ← u 1
  let scalingMatrix ← u 1
  onlyIf (scalingMatrix ≠ 0) (scalingLists (if chromaFormatIdc = 3 then 12 else 8) 0)

def seTimes : Nat → Reading Unit
  | 0 => return ()
  | n + 1 => do
    let _ ← se
    seTimes n

/-- The offsets of a cycle; a cycle longer than the bits there are is given up. -/
def cycleOffsets (cycle : Nat) : Reading Unit := fun r =>
  if r.bytes.length * 8 < cycle then none else seTimes cycle r

/-- The fields of the picture order count. -/
def pocFields : Reading Unit := do
  let pocType ← ue
  onlyIf (pocType = 0) ue
  onlyIf (pocType = 1) (do
    let _ ← u 1
    let _ ← se
    let _ ← se
    let cycle ← ue
    cycleOffsets cycle)

/-- The fields before the number of reference frames. -/
def leadingFields : Reading Unit := do
  let profileIdc ← u 8
  let _ ← u 8
  let _ ← u 8
  let _ ← ue
  onlyIf (isHighProfile profileIdc = true) highProfileFields
  let _ ← ue
  pocFields

/-- The fields between the number of reference frames and the VUI flag. -/
def frameFields : Reading Unit := do
  let _ ← u 1
  let _ ← ue
  let _ ← ue
  let frameMbsOnly ← u 1
  onlyIf (frameMbsOnly = 0) (u 1)
  let _ ← u 1
  let cropping ← u 1
  onlyIf (cropping ≠ 0) (do
    let _ ← ue
    let _ ← ue
    let _ ← ue
    ue)

/-- The fields up to the VUI flag, with the number of reference frames. -/
def fieldsUpToVuiFlag : Reading Nat := do
  leadingFields
  let maxNumRefFrames ← ue
  frameFields
  return maxNumRefFrames

structure SpsPrefix where
  valid : Bool := false
  hasVui : Bool := false
  vuiFlagBit : Nat := 0
  maxNumRefFrames : Nat := 0
deriving DecidableEq, Repr

def position : Reading Nat := fun r => some (r.pos, r)

/-- The fields and the flag. -/
def readUpToVuiFlag : Reading SpsPrefix := do
  let maxNumRefFrames ← fieldsUpToVuiFlag
  let vuiFlagBit ← position
  let flag ← u 1
  let overrun ← overrunSet
  return ⟨!overrun, flag ≠ 0, vuiFlagBit, maxNumRefFrames⟩

/-- `ParseUpToVuiFlag`; what is given up is not valid. -/
def parseUpToVuiFlag (rbsp : Bytes) : SpsPrefix :=
  ((readUpToVuiFlag ⟨rbsp, 0, false⟩).map (·.1)).getD {}

/-- `WriteZeroReorderVui`. -/
def writeZeroReorderVui (w : BitWriter) (maxDecFrameBuffering : Nat) : BitWriter :=
  let w := w.u 1 0
  let w := w.u 1 0
  let w := w.u 1 0
  let w := w.u 1 0
  let w := w.u 1 0
  let w := w.u 1 0
  let w := w.u 1 0
  let w := w.u 1 0
  let w := w.u 1 1
  let w := w.u 1 1
  let w := w.ue 0
  let w := w.ue 0
  let w := w.ue kMaxMvLengthLog2
  let w := w.ue kMaxMvLengthLog2
  let w := w.ue 0
  w.ue maxDecFrameBuffering

/-- The loop that copies bits; nothing when it would read past the end. -/
def copyBits (rbsp : Bytes) : Nat → BitWriter → Option BitWriter
  | 0, w => some w
  | bit + 1, w => do
    let w ← copyBits rbsp bit w
    let byte ← rbsp[bit / 8]?
    return w.u 1 ((byte.toNat >>> (7 - bit % 8)) &&& 1)

/-- `AnnexBSpsWithZeroReorder`. -/
def annexBSpsWithZeroReorder (spsNal : Bytes) : Option Bytes :=
  match spsNal with
  | header :: payload =>
    if payload = [] ∨ header &&& 0x1F ≠ kNalTypeSps then some []
    else
      let rbsp := toRbsp payload
      let sps := parseUpToVuiFlag rbsp
      if !sps.valid || sps.hasVui then some []
      else do
        let w := BitWriter.startNal {} ((header >>> 5) &&& 3) kNalTypeSps
        let w ← copyBits rbsp sps.vuiFlagBit w
        let w := w.u 1 1
        let w := writeZeroReorderVui w sps.maxNumRefFrames
        return w.trailing.out
  | [] => some []

open AnnexB in
/-- The loop of `AnnexBStreamWithZeroReorder`. -/
def streamFrom (annexb : Bytes) (pos copiedTo : Nat) (out : Bytes) : Option Bytes :=
  if pos < annexb.length then
    let startCode := startCodeLengthAt annexb pos
    if startCode = 0 then streamFrom annexb (pos + 1) copiedTo out
    else
      let nalStart := pos + startCode
      let nalEnd := nextStartCode annexb nalStart
      if h : nalStart < nalEnd then
        if annexb.get ⟨nalStart, lt_length_of_lt_next h⟩ &&& 0x1F = kNalTypeSps then do
          let sps ← annexBSpsWithZeroReorder ((annexb.drop nalStart).take (nalEnd - nalStart))
          if sps ≠ [] then
            streamFrom annexb nalEnd nalEnd
              (out ++ (annexb.drop copiedTo).take (pos - copiedTo) ++ sps)
          else streamFrom annexb nalEnd copiedTo out
        else streamFrom annexb nalEnd copiedTo out
      else streamFrom annexb nalEnd copiedTo out
  else some (if out = [] then [] else out ++ annexb.drop copiedTo)
termination_by annexb.length - pos
decreasing_by
  all_goals
    have hnext := le_nextStartCode annexb (pos + startCodeLengthAt annexb pos)
    omega

/-- `AnnexBStreamWithZeroReorder`. -/
def annexBStreamWithZeroReorder (annexb : Bytes) : Option Bytes := streamFrom annexb 0 0 []

end H264Sps

end Deskhub
