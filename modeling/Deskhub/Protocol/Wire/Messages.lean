import Deskhub.Protocol.Wire.Auth
import Deskhub.Protocol.Wire.Clipboard
import Deskhub.Protocol.Wire.Control
import Deskhub.Protocol.Wire.File
import Deskhub.Protocol.Wire.Input
import Deskhub.Protocol.Wire.Media
import Deskhub.Protocol.Wire.Terminal
import Mathlib.Data.List.Forall2

/-!
# The wire format

Every message that has a builder and a parser, and that it reads back: with the header its
builder stands for, and as it was but for the texts, sizes and lists that are bounded.
-/

namespace Deskhub

/-- A message, with the session it is written for where its builder takes one. -/
inductive WireMessage where
  | hello (m : Hello)
  | helloAck (m : HelloAck)
  | sourceList (sources : List SourceInfo) (caps : HostCaps) (hostName : Bytes)
  | ping (sessionId : UInt32) (m : PingPong)
  | pong (sessionId : UInt32) (m : PingPong)
  | feedback (sessionId : UInt32) (m : Feedback)
  | setFocus (sessionId : UInt32) (focused : Bool)
  | nack (sessionId frameId : UInt32) (indices : List UInt16)
  | invalidateRef (sessionId frameId : UInt32)
  | reconfig (sessionId : UInt32) (m : Reconfig)
  | videoPacket (sessionId : UInt32) (v : VideoPacketView)
  | fecPacket (sessionId : UInt32) (v : FecPacketView)
  | audioPacket (sessionId : UInt32) (v : AudioPacketView)
  | inputEvents (sessionId firstSeq : UInt32) (events : List InputEvent)
  | clipboard (sessionId : UInt32) (chunk : ClipboardChunkView)
  | termOpen (m : TermOpen)
  | termOpenAck (m : TermOpenAck)
  | termResize (termId : UInt32) (size : TermSize)
  | termExit (termId : UInt32) (exitCode : Int32)
  | termListAck (m : TermSessionList)
  | authStart (m : AuthStart)
  | authChallenge (m : AuthChallenge)
  | authResponse (m : AuthResponse)
  | authResult (m : AuthResult)
  | file (m : FileMsg)
deriving DecidableEq, Repr

namespace WireMessage

/-- The message's builder on a buffer of `cap` bytes. -/
def build (cap : Nat) : WireMessage → Option Bytes
  | hello m => buildHello cap m
  | helloAck m => buildHelloAck cap m
  | sourceList sources caps hostName => buildSourceList cap sources caps hostName
  | ping sessionId m => buildPing cap sessionId m
  | pong sessionId m => buildPong cap sessionId m
  | feedback sessionId m => buildFeedback cap sessionId m
  | setFocus sessionId focused => buildSetFocus cap sessionId focused
  | nack sessionId frameId indices => buildNack cap sessionId frameId indices
  | invalidateRef sessionId frameId => buildInvalidateRef cap sessionId frameId
  | reconfig sessionId m => buildReconfig cap sessionId m
  | videoPacket sessionId v => buildVideoPacket cap sessionId v.hdr v.idr v.frameEnd v.payload
  | fecPacket sessionId v => buildFecPacket cap sessionId v.hdr v.idr v.parity
  | audioPacket sessionId v => buildAudioPacket cap sessionId v.hdr v.payload
  | inputEvents sessionId firstSeq events => buildInputEvents cap sessionId firstSeq events
  | clipboard sessionId chunk => buildClipboardChunk cap sessionId chunk
  | termOpen m => buildTermOpen cap m
  | termOpenAck m => buildTermOpenAck cap m
  | termResize termId size => buildTermResize cap termId size
  | termExit termId exitCode => buildTermExit cap termId exitCode.toUInt32
  | termListAck m => buildTermListAck cap m
  | authStart m => buildAuthStart cap m
  | authChallenge m => buildAuthChallenge cap m
  | authResponse m => buildAuthResponse cap m
  | authResult m => buildAuthResult cap m
  | file m => m.build cap

/-- The header the message's builder stands for. -/
def header : WireMessage → CommonHeader
  | hello _ => ⟨kProtocolVersion, .hello, 0, .control, 0⟩
  | helloAck _ => ⟨kProtocolVersion, .helloAck, 0, .control, 0⟩
  | sourceList _ caps _ => ⟨kProtocolVersion, .sourceList, hostCapFlags caps, .control, 0⟩
  | ping sessionId _ => ⟨kProtocolVersion, .ping, 0, .control, sessionId⟩
  | pong sessionId _ => ⟨kProtocolVersion, .pong, 0, .control, sessionId⟩
  | feedback sessionId _ => ⟨kProtocolVersion, .feedback, 0, .control, sessionId⟩
  | setFocus sessionId _ => ⟨kProtocolVersion, .setFocus, 0, .control, sessionId⟩
  | nack sessionId _ _ => ⟨kProtocolVersion, .nack, 0, .control, sessionId⟩
  | invalidateRef sessionId _ => ⟨kProtocolVersion, .invalidateRef, 0, .control, sessionId⟩
  | reconfig sessionId _ => ⟨kProtocolVersion, .reconfig, 0, .control, sessionId⟩
  | videoPacket sessionId v =>
      ⟨kProtocolVersion, .videoPacket,
        (if v.idr then kVideoFlagIdr else 0) ||| (if v.frameEnd then kVideoFlagFrameEnd else 0),
        .video, sessionId⟩
  | fecPacket sessionId v =>
      ⟨kProtocolVersion, .fecPacket, if v.idr then kVideoFlagIdr else 0, .video, sessionId⟩
  | audioPacket sessionId _ => ⟨kProtocolVersion, .audioPacket, 0, .audio, sessionId⟩
  | inputEvents sessionId _ _ => ⟨kProtocolVersion, .inputEvent, 0, .input, sessionId⟩
  | clipboard sessionId _ => ⟨kProtocolVersion, .clipboard, 0, .control, sessionId⟩
  | termOpen _ => ⟨kProtocolVersion, .termOpen, 0, .terminal, 0⟩
  | termOpenAck m => ⟨kProtocolVersion, .termOpenAck, 0, .terminal, m.termId⟩
  | termResize termId _ => ⟨kProtocolVersion, .termResize, 0, .terminal, termId⟩
  | termExit termId _ => ⟨kProtocolVersion, .termExit, 0, .terminal, termId⟩
  | termListAck _ => ⟨kProtocolVersion, .termListAck, 0, .terminal, 0⟩
  | authStart _ => ⟨kProtocolVersion, .authStart, 0, .control, 0⟩
  | authChallenge _ => ⟨kProtocolVersion, .authChallenge, 0, .control, 0⟩
  | authResponse _ => ⟨kProtocolVersion, .authResponse, 0, .control, 0⟩
  | authResult _ => ⟨kProtocolVersion, .authResult, 0, .control, 0⟩
  | file m => ⟨kProtocolVersion, m.type, 0, .file, m.batchId⟩

/-- The parser of a header's type on a payload, into a span of `room` elements where it
writes one; a list of sources is read by both of its parsers. -/
def parse (room : Nat) (h : CommonHeader) (payload : Bytes) : Option WireMessage :=
  match h.type with
  | .hello => (parseHello payload).map hello
  | .helloAck => (parseHelloAck payload).map helloAck
  | .sourceList =>
      some (sourceList (parseSourceList payload room) (hostCapsOfFlags h.flags)
        (parseSourceListHostName payload))
  | .ping => (parsePingPong payload).map (ping h.sessionId)
  | .pong => (parsePingPong payload).map (pong h.sessionId)
  | .feedback => (parseFeedback payload).map (feedback h.sessionId)
  | .setFocus => (parseSetFocus payload).map (setFocus h.sessionId)
  | .nack => (parseNack payload room).map fun r => nack h.sessionId r.1 r.2
  | .invalidateRef => (parseInvalidateRef payload).map (invalidateRef h.sessionId)
  | .reconfig => (parseReconfig payload).map (reconfig h.sessionId)
  | .videoPacket => (parseVideoPacket h payload).map (videoPacket h.sessionId)
  | .fecPacket => (parseFecPacket h payload).map (fecPacket h.sessionId)
  | .audioPacket => (parseAudioPacket payload).map (audioPacket h.sessionId)
  | .inputEvent => (parseInputEvents payload room).map fun r => inputEvents h.sessionId r.1 r.2
  | .clipboard => (parseClipboardChunk payload).map (clipboard h.sessionId)
  | .termOpen => (parseTermOpen payload).map termOpen
  | .termOpenAck => (parseTermOpenAck payload).map termOpenAck
  | .termResize => (parseTermResize payload).map (termResize h.sessionId)
  | .termExit => (parseTermExit payload).map (termExit h.sessionId)
  | .termListAck => (parseTermListAck payload).map termListAck
  | .authStart => (parseAuthStart payload).map authStart
  | .authChallenge => (parseAuthChallenge payload).map authChallenge
  | .authResponse => (parseAuthResponse payload).map authResponse
  | .authResult => (parseAuthResult payload).map authResult
  | type => (FileMsg.parsePayload type payload).map file

/-- The indexes of the message are below their counts, and its chunk ends within the
largest file. -/
def InBounds : WireMessage → Prop
  | videoPacket _ v => v.hdr.pktIndex < v.hdr.pktCount
  | fecPacket _ v => v.hdr.groupIndex.toNat < numGroups v.hdr.pktCount.toNat
  | file m => m.InBounds
  | _ => True

/-- How many elements the message's parser writes to its output span. -/
def room : WireMessage → Nat
  | sourceList sources _ _ => min sources.length kMaxSources
  | nack _ _ indices => indices.length
  | inputEvents _ _ events => events.length
  | _ => 0

/-- What a message may read back as: as it is, or with its texts cut, the control bytes of
a client's name gone and those of a host's blank, its sizes clamped and its lists cut to
their maximum. -/
def ReadsAs : WireMessage → WireMessage → Prop
  | hello m, r => ∃ name, CutTo kMaxClientNameBytes m.clientName name ∧
      r = hello { m with clientName := removeControls name }
  | authStart m, r => ∃ name, CutTo kMaxClientNameBytes m.clientName name ∧
      r = authStart { m with clientName := removeControls name }
  | termOpen m, r => ∃ name, CutTo kMaxClientNameBytes m.clientName name ∧
      r = termOpen { m with size := clampTermSize m.size, clientName := removeControls name }
  | sourceList sources caps hostName, r => ∃ read name,
      List.Forall₂ (fun s s' => ∃ name, CutTo kMaxSourceNameBytes s.name name ∧
        s' = { s with name := name }) (sources.take kMaxSources) read ∧
      CutTo kMaxClientNameBytes hostName name ∧
      r = sourceList read caps (blankControls name)
  | termResize termId size, r => r = termResize termId (clampTermSize size)
  | termListAck m, r => ∃ read,
      List.Forall₂ (fun e e' => ∃ name, CutTo kMaxClientNameBytes e.clientName name ∧
        e' = { e with size := clampTermSize e.size, clientName := name })
        (m.sessions.take kMaxTermListEntries) read ∧
      r = termListAck ⟨read⟩
  | m, r => r = m

end WireMessage

/-- How many entries of a list are written. -/
theorem takeCount_eq {α : Type} (xs : List α) (limit : Nat) :
    (if xs.length < limit then xs.length else limit) = (xs.take limit).length ∧
      xs.take (xs.take limit).length = xs.take limit := by
  constructor
  · rw [List.length_take]
    split <;> omega
  · rw [List.length_take, Nat.min_comm, List.take_eq_take_iff]
    omega

namespace FileMsg

/-- What a file message's builder writes, if it writes. -/
theorem build_written {cap : Nat} {m : FileMsg} {d : Bytes} (h : m.build cap = some d) :
    ∃ payload, writeCommon cap m.type 0 .file m.batchId payload = some d := by
  cases m with
  | offer m =>
    rcases Option.ite_none_left_eq_some.mp h with ⟨-, h⟩
    rcases Option.ite_none_left_eq_some.mp h with ⟨-, h⟩
    exact ⟨_, h⟩
  | chunk m =>
    rcases Option.ite_none_left_eq_some.mp h with ⟨-, h⟩
    rcases Option.ite_none_left_eq_some.mp h with ⟨-, h⟩
    exact ⟨_, h⟩
  | accept m => exact ⟨_, h⟩
  | done m => exact ⟨_, h⟩
  | ack m => exact ⟨_, h⟩
  | cancel m => exact ⟨_, h⟩

/-- The header of a file message, and that its payload reads back. -/
theorem read_build {cap : Nat} {m : FileMsg} {d : Bytes} (hbounds : m.InBounds)
    (h : m.build cap = some d) :
    parseCommonHeader d = some ⟨kProtocolVersion, m.type, 0, .file, m.batchId⟩ ∧
      FileMsg.parsePayload m.type (payloadOf d) = some m := by
  have htype : m.type ∈ MsgType.declared := by
    cases m <;> simp [FileMsg.type, MsgType.declared]
  rcases build_written h with ⟨payload, hwritten⟩
  have hheader := parseCommonHeader_writeCommon htype (by intro b; simp) hwritten
  have hparse := parse_build hbounds h
  unfold FileMsg.parse at hparse
  rw [hheader] at hparse
  exact ⟨hheader, hparse⟩

end FileMsg

namespace WireMessage

variable {cap n : Nat} {d : Bytes}

theorem header_ver (m : WireMessage) : m.header.ver = kProtocolVersion := by
  cases m <;> rfl

/-- A header names a declared type and a declared channel. -/
theorem header_declared (m : WireMessage) :
    m.header.type ∈ MsgType.declared ∧ ∀ b, m.header.chan ≠ .other b := by
  cases m with
  | file m => cases m <;> simp [header, FileMsg.type, MsgType.declared]
  | _ => simp [header, MsgType.declared]

/-- What is written behind a message's header reads back if its parser takes it. -/
theorem reads_of_written {m r : WireMessage} {payload : Bytes}
    (h : writeCommon cap m.header.type m.header.flags m.header.chan m.header.sessionId payload =
      some d)
    (hparse : WireMessage.parse n m.header payload = some r) (hr : m.ReadsAs r) :
    parseCommonHeader d = some m.header ∧
      ∃ r, WireMessage.parse n m.header (payloadOf d) = some r ∧ m.ReadsAs r := by
  have hheader := parseCommonHeader_writeCommon m.header_declared.1 m.header_declared.2 h
  rw [← m.header_ver] at hheader
  rw [payloadOf_writeCommon h]
  exact ⟨hheader, r, hparse, hr⟩

/-- What the sources of a list may read back as. -/
theorem sources_cut (sources : List SourceInfo) :
    List.Forall₂ (fun s s' => ∃ name, CutTo kMaxSourceNameBytes s.name name ∧
      s' = { s with name := name }) sources (sources.map SourceInfo.cut) := by
  rw [List.forall₂_map_right_iff, List.forall₂_same]
  intro s _
  exact ⟨_, cutText_cutTo _ _, rfl⟩

theorem sessions_cut (sessions : List TermSessionEntry) :
    List.Forall₂ (fun e e' => ∃ name, CutTo kMaxClientNameBytes e.clientName name ∧
      e' = { e with size := clampTermSize e.size, clientName := name }) sessions
      (sessions.map TermSessionEntry.cut) := by
  rw [List.forall₂_map_right_iff, List.forall₂_same]
  intro e _
  exact ⟨_, cutText_cutTo _ _, rfl⟩

theorem sourceList_roundTrip {sources : List SourceInfo} {caps : HostCaps} {hostName : Bytes}
    (hroom : min sources.length kMaxSources ≤ n)
    (h : buildSourceList cap sources caps hostName = some d) :
    parseCommonHeader d = some (sourceList sources caps hostName).header ∧
      ∃ r, WireMessage.parse n (sourceList sources caps hostName).header (payloadOf d) = some r ∧
        (sourceList sources caps hostName).ReadsAs r := by
  rcases takeCount_eq sources kMaxSources with ⟨hcount, htake⟩
  have hmax : (sources.take kMaxSources).length ≤ kMaxSources := List.length_take_le _ _
  have hfits : (sources.take kMaxSources).length ≤ n := by
    rw [List.length_take]
    omega
  unfold buildSourceList at h
  dsimp only at h
  rw [hcount, htake] at h
  have hread : WireMessage.parse n (sourceList sources caps hostName).header
      ([UInt8.ofNat (sources.take kMaxSources).length] ++
        ((sources.take kMaxSources).map sourceEntry).flatten ++
        putText kMaxClientNameBytes hostName) =
      some (sourceList ((sources.take kMaxSources).map SourceInfo.cut) caps
        (blankControls (cutText kMaxClientNameBytes hostName))) := by
    unfold WireMessage.parse header
    dsimp only
    rw [parseSourceList_payload hmax hostName hfits, parseSourceListHostName_payload hmax,
      hostCapsOfFlags_flags]
  exact reads_of_written h hread ⟨_, _, sources_cut _, cutText_cutTo _ _, rfl⟩

theorem termListAck_roundTrip {m : TermSessionList} (h : buildTermListAck cap m = some d) :
    parseCommonHeader d = some (termListAck m).header ∧
      ∃ r, WireMessage.parse n (termListAck m).header (payloadOf d) = some r ∧
        (termListAck m).ReadsAs r := by
  rcases takeCount_eq m.sessions kMaxTermListEntries with ⟨hcount, htake⟩
  have hmax : (m.sessions.take kMaxTermListEntries).length ≤ kMaxTermListEntries :=
    List.length_take_le _ _
  unfold buildTermListAck at h
  dsimp only at h
  rw [hcount, htake] at h
  have hread := congrArg (Option.map termListAck) (parseTermListAck_payload hmax)
  exact reads_of_written h hread ⟨_, sessions_cut _, rfl⟩

/-- Every message that is written reads back: its header is the one its builder stands for,
and its parser gives the message, cut and clamped where it has to be. -/
theorem roundTrip {m : WireMessage} (hbounds : m.InBounds) (hroom : m.room ≤ n)
    (h : m.build cap = some d) :
    parseCommonHeader d = some m.header ∧
      ∃ r, WireMessage.parse n m.header (payloadOf d) = some r ∧ m.ReadsAs r := by
  cases m with
  | hello m =>
    have hread := congrArg (Option.map hello) (parseHello_payload m)
    exact reads_of_written h hread ⟨_, cutText_cutTo _ _, rfl⟩
  | helloAck m =>
    have hread := congrArg (Option.map helloAck) (parseHelloAck_payload m)
    exact reads_of_written h hread rfl
  | sourceList sources caps hostName => exact sourceList_roundTrip hroom h
  | ping sessionId m =>
    have hread := congrArg (Option.map (ping sessionId)) (parsePingPong_payload m)
    exact reads_of_written h hread rfl
  | pong sessionId m =>
    have hread := congrArg (Option.map (pong sessionId)) (parsePingPong_payload m)
    exact reads_of_written h hread rfl
  | feedback sessionId m =>
    have hread := congrArg (Option.map (feedback sessionId)) (parseFeedback_payload m)
    exact reads_of_written h hread rfl
  | setFocus sessionId focused =>
    have hread := congrArg (Option.map (setFocus sessionId)) (parseSetFocus_payload focused)
    exact reads_of_written h hread rfl
  | nack sessionId frameId indices =>
    rcases Option.ite_none_left_eq_some.mp h with ⟨hsize, h⟩
    rcases not_or.mp hsize with ⟨hne, hmax⟩
    have hread := congrArg (Option.map fun r => nack sessionId r.1 r.2)
      (parseNack_payload frameId hne (Nat.not_lt.mp hmax) hroom)
    exact reads_of_written h hread rfl
  | invalidateRef sessionId frameId =>
    have hread := congrArg (Option.map (invalidateRef sessionId)) (parseInvalidateRef_payload frameId)
    exact reads_of_written h hread rfl
  | reconfig sessionId m =>
    have hread := congrArg (Option.map (reconfig sessionId)) (parseReconfig_payload m)
    exact reads_of_written h hread rfl
  | videoPacket sessionId v =>
    rcases Option.ite_none_left_eq_some.mp h with ⟨hlen, h⟩
    have hread := congrArg (Option.map (videoPacket sessionId))
      (@parseVideoPacket_payload (videoPacket sessionId v).header v.hdr v.idr v.frameEnd v.payload
        hbounds (Nat.not_lt.mp hlen) rfl)
    exact reads_of_written h hread rfl
  | fecPacket sessionId v =>
    rcases Option.ite_none_left_eq_some.mp h with ⟨hlen, h⟩
    rcases not_or.mp hlen with ⟨hlow, hhigh⟩
    have hread := congrArg (Option.map (fecPacket sessionId))
      (@parseFecPacket_payload (fecPacket sessionId v).header v.hdr v.idr v.parity hbounds
        (Nat.not_lt.mp hlow) (Nat.not_lt.mp hhigh) rfl)
    exact reads_of_written h hread rfl
  | audioPacket sessionId v =>
    rcases Option.ite_none_left_eq_some.mp h with ⟨hlen, h⟩
    rcases not_or.mp hlen with ⟨hne, hmax⟩
    have hread := congrArg (Option.map (audioPacket sessionId))
      (parseAudioPacket_payload v.hdr hne (Nat.not_lt.mp hmax))
    exact reads_of_written h hread rfl
  | inputEvents sessionId firstSeq events =>
    have hparse := parseInputEvents_build h hroom
    rcases Option.ite_none_left_eq_some.mp h with ⟨-, h⟩
    rw [payloadOf_writeCommon h] at hparse
    have hread := congrArg (Option.map fun r => inputEvents sessionId r.1 r.2) hparse
    exact reads_of_written h hread rfl
  | clipboard sessionId chunk =>
    have hparse := parseClipboardChunk_build h
    rcases Option.ite_none_left_eq_some.mp h with ⟨-, h⟩
    rcases Option.ite_none_left_eq_some.mp h with ⟨-, h⟩
    rcases Option.ite_none_left_eq_some.mp h with ⟨-, h⟩
    rw [payloadOf_writeCommon h] at hparse
    have hread := congrArg (Option.map (clipboard sessionId)) hparse
    exact reads_of_written h hread rfl
  | termOpen m =>
    have hread := congrArg (Option.map termOpen) (parseTermOpen_payload m)
    exact reads_of_written h hread ⟨_, cutText_cutTo _ _, rfl⟩
  | termOpenAck m =>
    have hread := congrArg (Option.map termOpenAck) (parseTermOpenAck_payload m)
    exact reads_of_written h hread rfl
  | termResize termId size =>
    have hread := congrArg (Option.map (termResize termId)) (parseTermResize_payload size)
    exact reads_of_written h hread rfl
  | termExit termId exitCode =>
    have hread := congrArg (Option.map (termExit termId)) (parseTermExit_payload exitCode)
    exact reads_of_written h hread rfl
  | termListAck m => exact termListAck_roundTrip h
  | authStart m =>
    rcases Option.ite_none_left_eq_some.mp h with ⟨hkey, h⟩
    rcases Option.ite_none_left_eq_some.mp h with ⟨htoken, h⟩
    rcases not_or.mp hkey with ⟨hne, hmax⟩
    have hlen : m.pairingToken = [] ∨ m.pairingToken.length = kPairingTokenBytes := by
      by_contra hneither
      rcases not_or.mp hneither with ⟨hne, hother⟩
      exact htoken ⟨hne, hother⟩
    have hread := congrArg (Option.map authStart) (parseAuthStart_payload hne (Nat.not_lt.mp hmax) hlen)
    exact reads_of_written h hread ⟨_, cutText_cutTo _ _, rfl⟩
  | authChallenge m =>
    have hread := congrArg (Option.map authChallenge) (parseAuthChallenge_payload m)
    exact reads_of_written h hread rfl
  | authResponse m =>
    rcases Option.ite_none_left_eq_some.mp h with ⟨hproof, h⟩
    rcases not_or.mp hproof with ⟨hne, hmax⟩
    have hread := congrArg (Option.map authResponse) (parseAuthResponse_payload hne (Nat.not_lt.mp hmax))
    exact reads_of_written h hread rfl
  | authResult m =>
    rcases Option.ite_none_left_eq_some.mp h with ⟨hcode, h⟩
    have hread := congrArg (Option.map authResult) (parseAuthResult_payload (by simpa using hcode))
    exact reads_of_written h hread rfl
  | file m =>
    rcases FileMsg.read_build hbounds h with ⟨hheader, hparse⟩
    refine ⟨hheader, file m, ?_, rfl⟩
    have hread := congrArg (Option.map file) hparse
    cases m <;> exact hread

/-- A greeting whose name has a bell in it, in a datagram. -/
theorem roundTrip_bell :
    parseCommonHeader [3, 1, 0, 0, 0, 0, 0, 0, 0, 0, 0, 7, 7, 128, 4, 56, 0, 1, 0, 2, 65, 7] =
        some ⟨3, .hello, 0, .control, 0⟩ ∧
      ∃ r, WireMessage.parse 0 ⟨3, .hello, 0, .control, 0⟩ (payloadOf
          [3, 1, 0, 0, 0, 0, 0, 0, 0, 0, 0, 7, 7, 128, 4, 56, 0, 1, 0, 2, 65, 7]) = some r ∧
        (hello ⟨7, 1920, 1080, 1, 0, [65, 7]⟩).ReadsAs r := by
  have hbuild : (hello ⟨7, 1920, 1080, 1, 0, [65, 7]⟩).build kMaxDatagram =
      some [3, 1, 0, 0, 0, 0, 0, 0, 0, 0, 0, 7, 7, 128, 4, 56, 0, 1, 0, 2, 65, 7] := by decide
  exact @roundTrip kMaxDatagram 0 _ (hello ⟨7, 1920, 1080, 1, 0, [65, 7]⟩) trivial (Nat.zero_le 0)
    hbuild

end WireMessage

end Deskhub
