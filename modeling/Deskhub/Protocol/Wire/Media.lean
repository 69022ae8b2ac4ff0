import Deskhub.Protocol.Wire.Header

/-!
# Video, parity and audio packets

`BuildVideoPacket`, `BuildFecPacket`, `BuildAudioPacket` and their parsers, with the round
trip of each packet.
-/

namespace Deskhub

def kVideoHeaderSize : Nat := 16
def kFecHeaderSize : Nat := 16
def kFecGroupSize : Nat := 8
def kMaxFecGroups : Nat := 256
def kFecLenPrefix : Nat := 2
def kMaxVideoPayload : Nat := kMaxDatagram - kCommonHeaderSize - kFecHeaderSize - kFecLenPrefix

def kAudioHeaderSize : Nat := 12
def kMaxAudioPayload : Nat := kMaxDatagram - kCommonHeaderSize - kAudioHeaderSize

def kVideoFlagIdr : UInt8 := 1
def kVideoFlagFrameEnd : UInt8 := 2

structure VideoHeader where
  frameId : UInt32
  timestampUs : UInt64
  pktIndex : UInt16
  pktCount : UInt16
deriving DecidableEq, Repr

structure VideoPacketView where
  hdr : VideoHeader
  idr : Bool
  frameEnd : Bool
  payload : Bytes
deriving DecidableEq, Repr

structure FecHeader where
  frameId : UInt32
  timestampUs : UInt64
  pktCount : UInt16
  groupIndex : UInt8
deriving DecidableEq, Repr

structure FecPacketView where
  hdr : FecHeader
  idr : Bool
  parity : Bytes
deriving DecidableEq, Repr

structure AudioHeader where
  seq : UInt32
  timestampUs : UInt64
deriving DecidableEq, Repr

structure AudioPacketView where
  hdr : AudioHeader
  payload : Bytes
deriving DecidableEq, Repr

/-- How many parity groups a frame of `count` packets has. -/
def numGroups (count : Nat) : Nat := (count + kFecGroupSize - 1) / kFecGroupSize

def buildVideoPacket (cap : Nat) (sessionId : UInt32) (vh : VideoHeader) (idr frameEnd : Bool)
    (payload : Bytes) : Option Bytes :=
  if kMaxVideoPayload < payload.length then none
  else
    let flags := (if idr then kVideoFlagIdr else 0) ||| (if frameEnd then kVideoFlagFrameEnd else 0)
    writeCommon cap .videoPacket flags .video sessionId
      (putU32 vh.frameId ++ putU64 vh.timestampUs ++ putU16 vh.pktIndex ++ putU16 vh.pktCount
        ++ payload)

def buildFecPacket (cap : Nat) (sessionId : UInt32) (fh : FecHeader) (idr : Bool)
    (parity : Bytes) : Option Bytes :=
  if parity.length < kFecLenPrefix ∨ kFecLenPrefix + kMaxVideoPayload < parity.length then none
  else
    let flags := if idr then kVideoFlagIdr else 0
    writeCommon cap .fecPacket flags .video sessionId
      (putU32 fh.frameId ++ putU64 fh.timestampUs ++ putU16 fh.pktCount ++ [fh.groupIndex, 0]
        ++ parity)

def buildAudioPacket (cap : Nat) (sessionId : UInt32) (ah : AudioHeader) (payload : Bytes) :
    Option Bytes :=
  if payload = [] ∨ kMaxAudioPayload < payload.length then none
  else
    writeCommon cap .audioPacket 0 .audio sessionId
      (putU32 ah.seq ++ putU64 ah.timestampUs ++ payload)

def parseVideoPacket (h : CommonHeader) (payload : Bytes) : Option VideoPacketView :=
  if payload.length < kVideoHeaderSize then none
  else if kVideoHeaderSize + kMaxVideoPayload < payload.length then none
  else
    let v : VideoPacketView :=
      { hdr :=
          { frameId := getU32 payload
            timestampUs := getU64 (payload.drop 4)
            pktIndex := getU16 (payload.drop 12)
            pktCount := getU16 (payload.drop 14) }
        idr := h.flags &&& kVideoFlagIdr ≠ 0
        frameEnd := h.flags &&& kVideoFlagFrameEnd ≠ 0
        payload := payload.drop kVideoHeaderSize }
    if v.hdr.pktCount = 0 ∨ v.hdr.pktIndex ≥ v.hdr.pktCount then none else some v

def parseFecPacket (h : CommonHeader) (payload : Bytes) : Option FecPacketView :=
  if payload.length < kFecHeaderSize + kFecLenPrefix then none
  else if kFecHeaderSize + kFecLenPrefix + kMaxVideoPayload < payload.length then none
  else
    let v : FecPacketView :=
      { hdr :=
          { frameId := getU32 payload
            timestampUs := getU64 (payload.drop 4)
            pktCount := getU16 (payload.drop 12)
            groupIndex := byteAt payload 14 }
        idr := h.flags &&& kVideoFlagIdr ≠ 0
        parity := payload.drop kFecHeaderSize }
    if v.hdr.pktCount = 0 then none
    else if v.hdr.groupIndex.toNat ≥ numGroups v.hdr.pktCount.toNat then none
    else some v

def parseAudioPacket (payload : Bytes) : Option AudioPacketView :=
  if payload.length ≤ kAudioHeaderSize then none
  else if kAudioHeaderSize + kMaxAudioPayload < payload.length then none
  else some ⟨⟨getU32 payload, getU64 (payload.drop 4)⟩, payload.drop kAudioHeaderSize⟩

/-- Reading the fields of a header written in front of `rest`. -/
private theorem video_fields (id : UInt32) (ts : UInt64) (i n : UInt16) (rest : Bytes) :
    let p := putU32 id ++ putU64 ts ++ putU16 i ++ putU16 n ++ rest
    getU32 p = id ∧ getU64 (p.drop 4) = ts ∧ getU16 (p.drop 12) = i ∧ getU16 (p.drop 14) = n ∧
      p.drop 16 = rest := by
  refine ⟨?_, ?_, ?_, ?_, rfl⟩
  · simp only [List.append_assoc, getU32_putU32]
  · show getU64 (putU64 ts ++ (putU16 i ++ (putU16 n ++ rest))) = ts
    exact getU64_putU64 ts _
  · show getU16 (putU16 i ++ (putU16 n ++ rest)) = i
    exact getU16_putU16 i _
  · show getU16 (putU16 n ++ rest) = n
    exact getU16_putU16 n _

/-- The flag bits read back as they were set. -/
private theorem video_flags (idr frameEnd : Bool) :
    let flags := (if idr then kVideoFlagIdr else 0) ||| (if frameEnd then kVideoFlagFrameEnd else 0)
    decide (flags &&& kVideoFlagIdr ≠ 0) = idr ∧
      decide (flags &&& kVideoFlagFrameEnd ≠ 0) = frameEnd := by
  cases idr <;> cases frameEnd <;> decide

theorem parseVideoPacket_payload {h : CommonHeader} {vh : VideoHeader} {idr frameEnd : Bool}
    {payload : Bytes} (hlt : vh.pktIndex < vh.pktCount) (hlen : payload.length ≤ kMaxVideoPayload)
    (hflags : h.flags = (if idr then kVideoFlagIdr else 0) |||
      (if frameEnd then kVideoFlagFrameEnd else 0)) :
    parseVideoPacket h (putU32 vh.frameId ++ putU64 vh.timestampUs ++ putU16 vh.pktIndex ++
      putU16 vh.pktCount ++ payload) = some ⟨vh, idr, frameEnd, payload⟩ := by
  obtain ⟨hid, hts, hidx, hcnt, hrest⟩ :=
    video_fields vh.frameId vh.timestampUs vh.pktIndex vh.pktCount payload
  unfold parseVideoPacket
  rw [if_neg (by simp [kVideoHeaderSize]; omega), if_neg (by simp [kVideoHeaderSize]; omega)]
  have hpos : vh.pktCount ≠ 0 := by
    intro h0
    rw [h0] at hlt
    exact absurd hlt (UInt16.not_lt_zero)
  simp only [kVideoHeaderSize, hid, hts, hidx, hcnt, hrest, hflags]
  rw [if_neg (by simp [hpos, hlt])]
  rw [(video_flags idr frameEnd).1, (video_flags idr frameEnd).2]

/-- A video packet survives the wire: header, payload and flags come back. -/
theorem parseVideoPacket_build {sessionId : UInt32} {vh : VideoHeader} {idr frameEnd : Bool}
    {payload d : Bytes} (hlt : vh.pktIndex < vh.pktCount)
    (h : buildVideoPacket kMaxDatagram sessionId vh idr frameEnd payload = some d) :
    ∃ hdr, parseCommonHeader d = some hdr ∧ hdr.type = .videoPacket ∧ hdr.chan = .video ∧
      parseVideoPacket hdr (payloadOf d) = some ⟨vh, idr, frameEnd, payload⟩ := by
  unfold buildVideoPacket at h
  split at h
  · cases h
  · next hlen =>
    have hhdr := parseCommonHeader_writeCommon (by decide) (by intro b; simp) h
    refine ⟨_, hhdr, rfl, rfl, ?_⟩
    rw [payloadOf_writeCommon h]
    exact parseVideoPacket_payload hlt (Nat.not_lt.mp hlen) rfl

/-- Reading the fields of a parity header written in front of `rest`. -/
private theorem fec_fields (id : UInt32) (ts : UInt64) (n : UInt16) (g : UInt8) (rest : Bytes) :
    let p := putU32 id ++ putU64 ts ++ putU16 n ++ [g, 0] ++ rest
    getU32 p = id ∧ getU64 (p.drop 4) = ts ∧ getU16 (p.drop 12) = n ∧ byteAt p 14 = g ∧
      p.drop 16 = rest := by
  refine ⟨?_, ?_, ?_, rfl, rfl⟩
  · simp only [List.append_assoc, getU32_putU32]
  · show getU64 (putU64 ts ++ (putU16 n ++ ([g, 0] ++ rest))) = ts
    exact getU64_putU64 ts _
  · show getU16 (putU16 n ++ ([g, 0] ++ rest)) = n
    exact getU16_putU16 n _

theorem parseFecPacket_payload {h : CommonHeader} {fh : FecHeader} {idr : Bool} {parity : Bytes}
    (hlt : fh.groupIndex.toNat < numGroups fh.pktCount.toNat)
    (hlow : kFecLenPrefix ≤ parity.length) (hhigh : parity.length ≤ kFecLenPrefix + kMaxVideoPayload)
    (hflags : h.flags = if idr then kVideoFlagIdr else 0) :
    parseFecPacket h (putU32 fh.frameId ++ putU64 fh.timestampUs ++ putU16 fh.pktCount ++
      [fh.groupIndex, 0] ++ parity) = some ⟨fh, idr, parity⟩ := by
  obtain ⟨hid, hts, hcnt, hgrp, hrest⟩ :=
    fec_fields fh.frameId fh.timestampUs fh.pktCount fh.groupIndex parity
  unfold parseFecPacket
  rw [if_neg (by simp [kFecHeaderSize]; omega), if_neg (by simp [kFecHeaderSize]; omega)]
  have hpos : fh.pktCount ≠ 0 := by
    intro h0
    rw [h0] at hlt
    simp [numGroups, kFecGroupSize] at hlt
  simp only [kFecHeaderSize, hid, hts, hcnt, hgrp, hrest, hflags]
  rw [if_neg hpos, if_neg (by omega)]
  cases idr <;> simp [kVideoFlagIdr]

/-- A parity packet survives the wire. -/
theorem parseFecPacket_build {sessionId : UInt32} {fh : FecHeader} {idr : Bool}
    {parity d : Bytes} (hlt : fh.groupIndex.toNat < numGroups fh.pktCount.toNat)
    (h : buildFecPacket kMaxDatagram sessionId fh idr parity = some d) :
    ∃ hdr, parseCommonHeader d = some hdr ∧ hdr.type = .fecPacket ∧ hdr.chan = .video ∧
      parseFecPacket hdr (payloadOf d) = some ⟨fh, idr, parity⟩ := by
  unfold buildFecPacket at h
  split at h
  · cases h
  · next hlen =>
    push Not at hlen
    have hhdr := parseCommonHeader_writeCommon (by decide) (by intro b; simp) h
    refine ⟨_, hhdr, rfl, rfl, ?_⟩
    rw [payloadOf_writeCommon h]
    exact parseFecPacket_payload hlt hlen.1 hlen.2 rfl

theorem parseAudioPacket_payload (ah : AudioHeader) {payload : Bytes} (hne : payload ≠ [])
    (hlen : payload.length ≤ kMaxAudioPayload) :
    parseAudioPacket (putU32 ah.seq ++ putU64 ah.timestampUs ++ payload) = some ⟨ah, payload⟩ := by
  have hpos : 0 < payload.length := List.length_pos_of_ne_nil hne
  have hseq : getU32 (putU32 ah.seq ++ putU64 ah.timestampUs ++ payload) = ah.seq :=
    getU32_putU32 ah.seq _
  have htime : getU64 ((putU32 ah.seq ++ putU64 ah.timestampUs ++ payload).drop 4) =
      ah.timestampUs := getU64_putU64 ah.timestampUs _
  have hrest : (putU32 ah.seq ++ putU64 ah.timestampUs ++ payload).drop kAudioHeaderSize =
      payload := rfl
  have hsize : (putU32 ah.seq ++ putU64 ah.timestampUs ++ payload).length =
      kAudioHeaderSize + payload.length := by
    rw [List.length_append]
    rfl
  unfold parseAudioPacket
  rw [hsize, if_neg (by omega), if_neg (by omega), hseq, htime, hrest]

end Deskhub
