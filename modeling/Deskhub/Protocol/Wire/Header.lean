import Deskhub.Protocol.ByteOrder

/-!
# The common header of every message

Message types, channels and the eight bytes in front of every payload.
-/

namespace Deskhub

def kProtocolVersion : UInt8 := 3
def kMaxDatagram : Nat := 1200
def kCommonHeaderSize : Nat := 8
def kMaxRecordSize : Nat := 16384

/-- The logical channel of a message. A received byte may name none of them. -/
inductive Chan where
  | control | video | input | audio | terminal | file
  | other (code : UInt8)
deriving DecidableEq, Repr

def Chan.code : Chan → UInt8
  | .control => 0
  | .video => 1
  | .input => 2
  | .audio => 3
  | .terminal => 4
  | .file => 5
  | .other c => c

def Chan.ofCode (c : UInt8) : Chan :=
  if c = 0 then .control else if c = 1 then .video else if c = 2 then .input
  else if c = 3 then .audio else if c = 4 then .terminal else if c = 5 then .file
  else .other c

/-- The type of a message. A received byte may name none of them. -/
inductive MsgType where
  | hello | helloAck | start | bye | listSources | sourceList
  | videoPacket | fecPacket | audioPacket
  | inputEvent
  | ping | pong | feedback | requestKeyframe | reconfig | setFocus | nack | invalidateRef
  | clipboard
  | termOpen | termOpenAck | termData | termResize | termClose | termExit | termList | termListAck
  | authStart | authChallenge | authResponse | authResult
  | fileOffer | fileAccept | fileChunk | fileDone | fileAck | fileCancel
  | other (code : UInt8)
deriving DecidableEq, Repr

def MsgType.code : MsgType → UInt8
  | .hello => 0x01 | .helloAck => 0x02 | .start => 0x03 | .bye => 0x04
  | .listSources => 0x05 | .sourceList => 0x06
  | .videoPacket => 0x10 | .fecPacket => 0x11 | .audioPacket => 0x12
  | .inputEvent => 0x20
  | .ping => 0x30 | .pong => 0x31 | .feedback => 0x32 | .requestKeyframe => 0x33
  | .reconfig => 0x34 | .setFocus => 0x35 | .nack => 0x36 | .invalidateRef => 0x37
  | .clipboard => 0x40
  | .termOpen => 0x50 | .termOpenAck => 0x51 | .termData => 0x52 | .termResize => 0x53
  | .termClose => 0x54 | .termExit => 0x55 | .termList => 0x56 | .termListAck => 0x57
  | .authStart => 0x60 | .authChallenge => 0x61 | .authResponse => 0x62 | .authResult => 0x63
  | .fileOffer => 0x70 | .fileAccept => 0x71 | .fileChunk => 0x72 | .fileDone => 0x73
  | .fileAck => 0x74 | .fileCancel => 0x75
  | .other c => c

/-- The declared types, for reading a type back from its code. -/
def MsgType.declared : List MsgType :=
  [.hello, .helloAck, .start, .bye, .listSources, .sourceList, .videoPacket, .fecPacket,
    .audioPacket, .inputEvent, .ping, .pong, .feedback, .requestKeyframe, .reconfig, .setFocus,
    .nack, .invalidateRef, .clipboard, .termOpen, .termOpenAck, .termData, .termResize,
    .termClose, .termExit, .termList, .termListAck, .authStart, .authChallenge, .authResponse,
    .authResult, .fileOffer, .fileAccept, .fileChunk, .fileDone, .fileAck, .fileCancel]

def MsgType.ofCode (c : UInt8) : MsgType :=
  (MsgType.declared.find? (fun t => t.code = c)).getD (.other c)

/-- A type's code is the byte it was read from. -/
@[simp] theorem MsgType.code_ofCode (c : UInt8) : (MsgType.ofCode c).code = c := by
  unfold MsgType.ofCode
  cases h : MsgType.declared.find? (fun t => t.code = c) with
  | none => rfl
  | some t => simpa using List.find?_some h

/-- A declared type is read back from its code. -/
theorem MsgType.ofCode_code {t : MsgType} (h : t ∈ MsgType.declared) :
    MsgType.ofCode t.code = t := by
  revert t
  decide

/-- A declared channel is read back from its code. -/
theorem Chan.ofCode_code {c : Chan} (h : ∀ b, c ≠ .other b) : Chan.ofCode c.code = c := by
  cases c with
  | other b => exact absurd rfl (h b)
  | _ => decide

structure CommonHeader where
  ver : UInt8
  type : MsgType
  flags : UInt8
  chan : Chan
  sessionId : UInt32
deriving DecidableEq, Repr

/-- The header and the payload, when they fit in a buffer of `cap` bytes. -/
def writeCommon (cap : Nat) (type : MsgType) (flags : UInt8) (chan : Chan) (sessionId : UInt32)
    (payload : Bytes) : Option Bytes :=
  if cap < kCommonHeaderSize + payload.length then none
  else some ([kProtocolVersion, type.code, flags, chan.code] ++ putU32 sessionId ++ payload)

def buildEmpty (cap : Nat) (type : MsgType) (sessionId : UInt32) : Option Bytes :=
  writeCommon cap type 0 .control sessionId []

def parseCommonHeader (datagram : Bytes) : Option CommonHeader :=
  if datagram.length < kCommonHeaderSize then none
  else if byteAt datagram 0 ≠ kProtocolVersion then none
  else some
    { ver := byteAt datagram 0
      type := .ofCode (byteAt datagram 1)
      flags := byteAt datagram 2
      chan := .ofCode (byteAt datagram 3)
      sessionId := getU32 (datagram.drop 4) }

def payloadOf (datagram : Bytes) : Bytes :=
  if datagram.length < kCommonHeaderSize then [] else datagram.drop kCommonHeaderSize

/-- A written message fits, and is the header followed by the payload. -/
theorem writeCommon_eq_some {cap : Nat} {type : MsgType} {flags : UInt8} {chan : Chan}
    {sessionId : UInt32} {payload d : Bytes} :
    writeCommon cap type flags chan sessionId payload = some d ↔
      8 + payload.length ≤ cap ∧
        d = [kProtocolVersion, type.code, flags, chan.code] ++ putU32 sessionId ++ payload := by
  unfold writeCommon kCommonHeaderSize
  split
  · simp
    omega
  · simp [eq_comm]
    omega

/-- What the header of a written message reads back as. -/
theorem parseCommonHeader_writeCommon {cap : Nat} {type : MsgType} {flags : UInt8} {chan : Chan}
    {sessionId : UInt32} {payload d : Bytes} (htype : type ∈ MsgType.declared)
    (hchan : ∀ b, chan ≠ .other b)
    (h : writeCommon cap type flags chan sessionId payload = some d) :
    parseCommonHeader d = some ⟨kProtocolVersion, type, flags, chan, sessionId⟩ := by
  obtain ⟨-, rfl⟩ := writeCommon_eq_some.mp h
  simp [parseCommonHeader, kCommonHeaderSize, byteAt, MsgType.ofCode_code htype,
    Chan.ofCode_code hchan]

/-- The payload of a written message. -/
theorem payloadOf_writeCommon {cap : Nat} {type : MsgType} {flags : UInt8} {chan : Chan}
    {sessionId : UInt32} {payload d : Bytes}
    (h : writeCommon cap type flags chan sessionId payload = some d) : payloadOf d = payload := by
  obtain ⟨-, rfl⟩ := writeCommon_eq_some.mp h
  simp [payloadOf, kCommonHeaderSize, putU32]

/-- How much of `s` is kept under `limit` bytes without cutting a code point. -/
def utf8TruncLen (s : Bytes) (limit : Nat) : Nat :=
  if s.length ≤ limit then s.length else backToBoundary s limit
where
  /-- Step back while `s[n]` continues a code point. -/
  backToBoundary (s : Bytes) : Nat → Nat
    | 0 => 0
    | n + 1 => if byteAt s (n + 1) &&& 0xC0 = 0x80 then backToBoundary s n else n + 1

end Deskhub
