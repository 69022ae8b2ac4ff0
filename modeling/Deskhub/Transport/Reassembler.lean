import Deskhub.Lib.Machine
import Deskhub.Lib.OrdMap
import Deskhub.Lib.Xor
import Deskhub.Protocol.Wire.Media
import Mathlib.Data.List.Range
import Mathlib.Data.List.Nodup

/-!
# The reassembler

`Reassembler`: pending frames keyed by id, pieces and parity blocks as they
arrive, recovery of a lone missing piece, delivery in id order, and the reasons
a frame is given up. Callbacks are outputs; a call of `PopReady` outputs the
frame it returns.
-/

namespace Deskhub

open Xor OrdMap

def kMaxPendingFrames : Nat := 8
def kStallTimeoutMultiple : UInt64 := 2
def kHardTimeoutMultiple : UInt64 := 30
def kRetransmitRttMultiple : UInt64 := 3
def kRetransmitRttDivisor : UInt64 := 2
def kNackHoldUs : UInt64 := 2000
def kNackMinIntervalUs : UInt64 := 10000
def kGraveyardSize : Nat := 16
def kDefaultFrameIntervalUs : UInt64 := 16667

/-- A frame handed out by `PopReady`. -/
structure Frame where
  frameId : UInt32
  timestampUs : UInt64
  idr : Bool
  firstSeenUs : UInt64
  nal : Bytes
deriving DecidableEq, Repr

inductive DropReason where
  | timeout | overtaken | evicted | preIdr
deriving DecidableEq, Repr

structure FrameDropInfo where
  frameId : UInt32
  reason : DropReason
  missing : UInt16
  total : UInt16
  firstMissing : UInt16
  lastMissing : UInt16
  idr : Bool
  waitedMs : UInt32
  bytesGot : UInt32
deriving DecidableEq, Repr

/-- The counters, none of which the reassembler reads back. -/
structure ReassemblerStats where
  packetsReceived : Nat := 0
  fecReceived : Nat := 0
  framesCompleted : Nat := 0
  framesDropped : Nat := 0
  framesSkipped : Nat := 0
  packetsLost : Nat := 0
  lossEvents : Nat := 0
  packetsRecovered : Nat := 0
  lossRuns : List Nat := List.replicate 7 0
  lossRunMax : Nat := 0
  latePackets : Nat := 0
  lateMsSum : Nat := 0
  lateMsMax : Nat := 0
deriving DecidableEq, Repr

/-- A frame that is being put together. -/
structure Pending where
  pieces : List Bytes := []
  parity : Map UInt8 Bytes := .empty
  pktCount : UInt16 := 0
  received : UInt16 := 0
  maxIndexSeen : UInt16 := 0
  timestampUs : UInt64 := 0
  idr : Bool := false
  firstSeenUs : UInt64 := 0
  lastPushUs : UInt64 := 0
  lastNackUs : UInt64 := 0
  bytes : Nat := 0
deriving DecidableEq

/-- The id and the time of a frame that was given up. -/
structure Grave where
  frameId : UInt32 := 0
  dropUs : UInt64 := 0
deriving DecidableEq, Repr

structure Reassembler where
  pending : Map UInt32 Pending := .empty
  frameIntervalUs : UInt64 := kDefaultFrameIntervalUs
  rttUs : UInt64 := 0
  waitingForIdr : Bool := true
  lossEvent : Bool := false
  /-- `haveBarrier_` and `barrierId_`: ids at or below it are refused. -/
  barrier : Option UInt32 := none
  stats : ReassemblerStats := {}
  graveyard : List Grave := List.replicate kGraveyardSize {}
  graveNext : Nat := 0
  lastPushUs : UInt64 := 0
  maxGapMs : UInt32 := 0
deriving DecidableEq

/-- What the outside sees: the two callbacks, and the frames `PopReady` returns. -/
inductive ReassemblerEvent where
  | frameDrop (info : FrameDropInfo)
  | referenceLost (frameId : UInt32)
  | returned (frame : Frame)
deriving DecidableEq, Repr

/-- `for (i = start; i < stop; i += step)`: the values `i` takes. -/
def loopIndices (start stop step : Nat) : List Nat :=
  List.range' start ((stop - start + step - 1) / step) step

namespace Pending

def complete (f : Pending) : Bool := f.pktCount ≠ 0 && f.received = f.pktCount

/-- Piece `i`, empty as long as it has not come. -/
def pieceAt (f : Pending) (i : Nat) : Bytes := f.pieces.getD i []

/-- The parity block with the pieces of `is` added to it; none when a piece is
longer than the block. -/
def addPieces (f : Pending) : List Nat → Bytes → Option Bytes
  | [], rec => some rec
  | i :: rest, rec =>
      let p := f.pieceAt i
      if rec.length < kFecLenPrefix + p.length then none
      else addPieces f rest
        (xorInto rec ([UInt8.ofNat (p.length >>> 8), UInt8.ofNat (p.length &&& 0xFF)] ++ p))

/-- `TryRecover`: the frame with the one missing piece of the group filled in. -/
def tryRecover (f : Pending) (group : UInt8) : Option Pending :=
  match f.parity.find? group with
  | none => none
  | some par =>
      let groups := numGroups f.pktCount.toNat
      if groups = 0 ∨ group.toNat ≥ groups then none
      else
        let members := loopIndices group.toNat f.pktCount.toNat groups
        match members.filter (fun i => f.pieceAt i = []) with
        | [missingIdx] =>
            match f.addPieces (members.filter (fun i => i ≠ missingIdx)) par with
            | none => none
            | some rec =>
                let len := (getU16 rec).toNat
                if len = 0 ∨ kMaxVideoPayload < len ∨ rec.length < kFecLenPrefix + len then none
                else
                  some
                    { f with
                      pieces := f.pieces.set missingIdx ((rec.drop kFecLenPrefix).take len)
                      bytes := f.bytes + len
                      received := f.received + 1 }
        | _ => none

/-- `TryRecover` in place: the frame, and whether a piece was recovered. -/
def recover (f : Pending) (group : UInt8) : Pending × Bool :=
  match f.tryRecover group with
  | none => (f, false)
  | some f' => (f', true)

/-- The part of `Push` that works on the frame `Slot` found. -/
def accept (f : Pending) (pkt : VideoPacketView) : Pending × Bool :=
  let index := pkt.hdr.pktIndex
  if index ≥ f.pktCount then (f, false)
  else
    let f := if index > f.maxIndexSeen then { f with maxIndexSeen := index } else f
    if f.pieceAt index.toNat ≠ [] then (f, false)
    else
      let f :=
        { f with
          pieces := f.pieces.set index.toNat pkt.payload
          bytes := f.bytes + pkt.payload.length
          idr := f.idr || pkt.idr
          received := f.received + 1 }
      let groups := numGroups f.pktCount.toNat
      if groups = 0 then (f, false) else f.recover (UInt8.ofNat (index.toNat % groups))

/-- The part of `PushFec` that works on the frame `Slot` found. -/
def acceptFec (f : Pending) (pkt : FecPacketView) : Pending × Bool :=
  let f := { f with idr := f.idr || pkt.idr }
  match f.parity.find? pkt.hdr.groupIndex with
  | some (_ :: _) => (f, false)
  | _ =>
      let f := { f with parity := f.parity.insert pkt.hdr.groupIndex pkt.parity }
      f.recover pkt.hdr.groupIndex

end Pending

/-- What `PopReady` does with the oldest pending frame. -/
inductive HeadVerdict where
  | drop (reason : DropReason)
  | deliver
  | wait
deriving DecidableEq, Repr

/-- The slot of `lossRuns` a run of `run` missing pieces is counted in. -/
def lossBucket (run : Nat) : Nat :=
  if run ≤ 3 then run - 1 else if run < 8 then 3 else if run < 16 then 4
  else if run < 32 then 5 else 6

/-- The state of the scan over the missing pieces of a dropped frame. -/
structure LossScan where
  missing : UInt16 := 0
  firstMissing : UInt16 := 0
  lastMissing : UInt16 := 0
  run : Nat := 0
  anyMissing : Bool := false
  lossRuns : List Nat
  lossRunMax : Nat
deriving DecidableEq, Repr

/-- One turn of the scan, at index `i` of `0 .. pktCount`. -/
def LossScan.step (f : Pending) (sc : LossScan) (i : Nat) : LossScan :=
  if i < f.pktCount.toNat ∧ f.pieceAt i = [] then
    { sc with
      missing := sc.missing + 1
      firstMissing := if sc.anyMissing then sc.firstMissing else UInt16.ofNat i
      anyMissing := true
      lastMissing := UInt16.ofNat i
      run := sc.run + 1 }
  else if sc.run ≠ 0 then
    { sc with
      lossRuns := sc.lossRuns.modify (lossBucket sc.run) (· + 1)
      lossRunMax := if sc.lossRunMax < sc.run then sc.run else sc.lossRunMax
      run := 0 }
  else sc

namespace Reassembler

def create (frameIntervalUs : UInt64) : Reassembler :=
  { frameIntervalUs := if frameIntervalUs ≠ 0 then frameIntervalUs else kDefaultFrameIntervalUs }

def setFps (s : Reassembler) (fps : UInt32) : Reassembler :=
  if fps ≠ 0 then { s with frameIntervalUs := 1000000 / fps.toUInt64 } else s

def setRttUs (s : Reassembler) (rttUs : UInt64) : Reassembler := { s with rttUs := rttUs }

def hardTimeoutUs (s : Reassembler) : UInt64 := kHardTimeoutMultiple * s.frameIntervalUs

def stallTimeoutUs (s : Reassembler) : UInt64 :=
  let paced := kStallTimeoutMultiple * s.frameIntervalUs
  let retransmit := kNackHoldUs + s.rttUs * kRetransmitRttMultiple / kRetransmitRttDivisor
  let wait := if paced > retransmit then paced else retransmit
  let hard := s.hardTimeoutUs
  if wait < hard then wait else hard

/-- Whether packets of frame `id` are refused. -/
def refuses (s : Reassembler) (id : UInt32) : Bool :=
  match s.barrier with
  | none => false
  | some b => decide (id ≤ b)

/-- `Drop` of the pending frame `f` with id `id`. -/
def drop (s : Reassembler) (id : UInt32) (f : Pending) (reason : DropReason) (nowUs : UInt64) :
    Reassembler × List ReassemblerEvent :=
  let loss := decide (reason ≠ .preIdr)
  let scan :=
    (List.range (f.pktCount.toNat + 1)).foldl (LossScan.step f)
      { lossRuns := s.stats.lossRuns, lossRunMax := s.stats.lossRunMax }
  let info : FrameDropInfo :=
    { frameId := id
      reason := reason
      missing := if loss then scan.missing else 0
      total := f.pktCount
      firstMissing := if loss then scan.firstMissing else 0
      lastMissing := if loss then scan.lastMissing else 0
      idr := f.idr
      waitedMs := ((nowUs - f.firstSeenUs) / 1000).toUInt32
      bytesGot := UInt32.ofNat f.bytes }
  let s :=
    if loss then
      { s with
        stats :=
          { s.stats with
            framesDropped := s.stats.framesDropped + 1
            packetsLost := s.stats.packetsLost + (f.pktCount.toNat - f.received.toNat)
            lossRuns := scan.lossRuns
            lossRunMax := scan.lossRunMax
            lossEvents := s.stats.lossEvents + 1 }
        graveyard := s.graveyard.set s.graveNext ⟨id, nowUs⟩
        graveNext := (s.graveNext + 1) % kGraveyardSize
        lossEvent := true }
    else { s with stats := { s.stats with framesSkipped := s.stats.framesSkipped + 1 } }
  let s := { s with
    barrier := if s.refuses id then s.barrier else some id
    pending := s.pending.erase id }
  (s, .frameDrop info :: if loss then [.referenceLost id] else [])

/-- The eviction loop of `Slot`; the fuel is the number of pending frames. -/
def evict : Nat → Reassembler → UInt64 → Reassembler × List ReassemblerEvent
  | 0, s, _ => (s, [])
  | n + 1, s, nowUs =>
      if s.pending.size < kMaxPendingFrames then (s, [])
      else
        match s.pending.first? with
        | none => (s, [])
        | some (id, f) =>
            let (s, dropped) := s.drop id f .evicted nowUs
            let (s, more) := evict n s nowUs
            (s, dropped ++ more)

/-- A new pending frame. -/
def fresh (pktCount : UInt16) (timestampUs nowUs : UInt64) : Pending :=
  { pktCount := pktCount
    pieces := List.replicate pktCount.toNat []
    timestampUs := timestampUs
    firstSeenUs := nowUs }

/-- The map with a pending frame written back. -/
def store (s : Reassembler) (id : UInt32) (f : Pending) : Reassembler :=
  { s with pending := s.pending.insert id f }

/-- `Slot`: the pending frame the packet belongs to, made when it is new. -/
def slot (s : Reassembler) (id : UInt32) (pktCount : UInt16) (timestampUs nowUs : UInt64) :
    Reassembler × List ReassemblerEvent × Option Pending :=
  if s.refuses id then (s, [], none)
  else
    let (s, evicted, f) :=
      match s.pending.find? id with
      | some f => (s, [], f)
      | none =>
          let (s, evicted) := evict s.pending.size s nowUs
          let f := fresh pktCount timestampUs nowUs
          (s.store id f, evicted, f)
    if f.pktCount ≠ pktCount then (s, evicted, none)
    else
      let f := { f with lastPushUs := nowUs }
      (s.store id f, evicted, some f)

/-- Write back a frame that was changed in place, counting a recovery. -/
def keep (s : Reassembler) (id : UInt32) (changed : Pending × Bool) : Reassembler :=
  { s.store id changed.1 with
    stats :=
      if changed.2 then { s.stats with packetsRecovered := s.stats.packetsRecovered + 1 }
      else s.stats }

def noteLatePacket (s : Reassembler) (id : UInt32) (nowUs : UInt64) : Reassembler :=
  match s.graveyard.find? (fun g => g.dropUs ≠ 0 ∧ g.frameId = id) with
  | none => s
  | some g =>
      let lateMs := ((nowUs - g.dropUs) / 1000).toNat
      { s with
        stats :=
          { s.stats with
            latePackets := s.stats.latePackets + 1
            lateMsSum := s.stats.lateMsSum + lateMs
            lateMsMax := if s.stats.lateMsMax < lateMs then lateMs else s.stats.lateMsMax } }

/-- The counters at the head of `Push`. -/
def notePush (s : Reassembler) (nowUs : UInt64) : Reassembler :=
  let gapMs := ((nowUs - s.lastPushUs) / 1000).toUInt32
  { s with
    stats := { s.stats with packetsReceived := s.stats.packetsReceived + 1 }
    maxGapMs := if s.lastPushUs ≠ 0 ∧ gapMs > s.maxGapMs then gapMs else s.maxGapMs
    lastPushUs := nowUs }

def push (s : Reassembler) (pkt : VideoPacketView) (nowUs : UInt64) :
    Reassembler × List ReassemblerEvent :=
  let s := s.notePush nowUs
  if pkt.payload = [] then (s, [])
  else
    let s := if s.refuses pkt.hdr.frameId then s.noteLatePacket pkt.hdr.frameId nowUs else s
    let (s, evicted, slot) := s.slot pkt.hdr.frameId pkt.hdr.pktCount pkt.hdr.timestampUs nowUs
    match slot with
    | none => (s, evicted)
    | some f => (s.keep pkt.hdr.frameId (f.accept pkt), evicted)

def pushFec (s : Reassembler) (pkt : FecPacketView) (nowUs : UInt64) :
    Reassembler × List ReassemblerEvent :=
  let s := { s with stats := { s.stats with fecReceived := s.stats.fecReceived + 1 } }
  if pkt.parity.length < kFecLenPrefix then (s, [])
  else
    let (s, evicted, slot) := s.slot pkt.hdr.frameId pkt.hdr.pktCount pkt.hdr.timestampUs nowUs
    match slot with
    | none => (s, evicted)
    | some f => (s.keep pkt.hdr.frameId (f.acceptFec pkt), evicted)

/-- The branch `PopReady` takes for the oldest pending frame `f`, with the frames
behind it. -/
def headVerdict (s : Reassembler) (f : Pending) (newer : List (UInt32 × Pending)) (nowUs : UInt64) :
    HeadVerdict :=
  if f.complete then
    if s.waitingForIdr && !f.idr then .drop .preIdr else .deliver
  else
    let activityUs := if f.lastNackUs > f.lastPushUs then f.lastNackUs else f.lastPushUs
    if nowUs - f.firstSeenUs > s.hardTimeoutUs ∨ nowUs - activityUs > s.stallTimeoutUs then
      .drop .timeout
    else if !f.idr && decide (2 ≤ (newer.filter (fun p => p.2.complete)).length) then
      .drop .overtaken
    else .wait

/-- The delivering branch: the frame goes out and the barrier moves to its id. -/
def deliver (s : Reassembler) (id : UInt32) (f : Pending) : Reassembler × Frame :=
  ({ s with
      barrier := some id
      waitingForIdr := false
      stats := { s.stats with framesCompleted := s.stats.framesCompleted + 1 }
      pending := s.pending.erase id },
    { frameId := id
      timestampUs := f.timestampUs
      idr := f.idr
      firstSeenUs := f.firstSeenUs
      nal := f.pieces.flatten })

/-- The loop of `PopReady`; the fuel is the number of pending frames. -/
def popLoop : Nat → Reassembler → UInt64 → Reassembler × List ReassemblerEvent × Option Frame
  | 0, s, _ => (s, [], none)
  | n + 1, s, nowUs =>
      match s.pending.first? with
      | none => (s, [], none)
      | some (id, f) =>
          match s.headVerdict f s.pending.entries.tail nowUs with
          | .wait => (s, [], none)
          | .deliver =>
              let (s, out) := s.deliver id f
              (s, [], some out)
          | .drop reason =>
              let (s, dropped) := s.drop id f reason nowUs
              let (s, more, out) := popLoop n s nowUs
              (s, dropped ++ more, out)

def popReady (s : Reassembler) (nowUs : UInt64) :
    Reassembler × List ReassemblerEvent × Option Frame :=
  popLoop s.pending.size s nowUs

/-- The scan of `PlanNack` over the pending frames: the frame to ask for and the
indices to ask, at most `room` of them. -/
def planScan (s : Reassembler) (nowUs rttUs : UInt64) (room : Nat) :
    List (UInt32 × Pending) → Option (UInt32 × Pending × List UInt16)
  | [] => none
  | (id, f) :: rest =>
      if f.complete then planScan s nowUs rttUs room rest
      else if nowUs - f.firstSeenUs ≥ s.hardTimeoutUs then planScan s nowUs rttUs room rest
      else if nowUs - f.firstSeenUs < kNackHoldUs then none
      else
        let interval := if rttUs > kNackMinIntervalUs then rttUs else kNackMinIntervalUs
        if f.lastNackUs ≠ 0 ∧ nowUs - f.lastNackUs < interval then none
        else
          let tailStalled := decide (nowUs - f.lastPushUs ≥ s.frameIntervalUs)
          let scanLimit := if tailStalled then f.pktCount else f.maxIndexSeen
          let missing := ((List.range scanLimit.toNat).filter (fun i => f.pieceAt i = [])).take room
          if missing = [] then none else some (id, f, missing.map UInt16.ofNat)

/-- `PlanNack`: the frame id and the indices written to `out`. -/
def planNack (s : Reassembler) (nowUs rttUs : UInt64) (room : Nat) :
    Reassembler × Option (UInt32 × List UInt16) :=
  if room = 0 then (s, none)
  else
    match s.planScan nowUs rttUs room s.pending.entries with
    | none => (s, none)
    | some (id, f, indices) => (s.store id { f with lastNackUs := nowUs }, some (id, indices))

def takeLossEvent (s : Reassembler) : Reassembler × Bool :=
  ({ s with lossEvent := false }, s.lossEvent)

end Reassembler

/-- The calls a client makes on its reassembler. -/
inductive ReassemblerOp where
  | push (pkt : VideoPacketView) (nowUs : UInt64)
  | pushFec (pkt : FecPacketView) (nowUs : UInt64)
  | popReady (nowUs : UInt64)
  | planNack (nowUs rttUs : UInt64) (room : Nat)
  | setFps (fps : UInt32)
  | setRttUs (rttUs : UInt64)
deriving DecidableEq

/-- The reassembler as a machine: a call, and the events it makes. -/
def reassembler : Machine Reassembler ReassemblerOp ReassemblerEvent where
  step s
    | .push pkt nowUs => s.push pkt nowUs
    | .pushFec pkt nowUs => s.pushFec pkt nowUs
    | .popReady nowUs =>
        let (s, dropped, out) := s.popReady nowUs
        (s, dropped ++ (out.map .returned).toList)
    | .planNack nowUs rttUs room => ((s.planNack nowUs rttUs room).1, [])
    | .setFps fps => (s.setFps fps, [])
    | .setRttUs rttUs => (s.setRttUs rttUs, [])

end Deskhub
