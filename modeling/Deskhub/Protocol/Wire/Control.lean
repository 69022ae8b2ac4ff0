import Deskhub.Protocol.Wire.Texts

/-!
# Control messages

The builders and parsers of the messages that open, steer and close a session, and of the
list of sources, with what each parser gives on what its builder wrote.
-/

namespace Deskhub

def kHelloFixedBytes : Nat := 12
def kHelloAckBytes : Nat := 15
def kReconfigBytes : Nat := 9
def kFeedbackBytes : Nat := 7
def kNackHeaderSize : Nat := 5
def kMaxNackIndices : Nat := 255
def kMaxSources : Nat := 8

def kHostAcceptsInput : UInt8 := 1
def kHostSharesTerminal : UInt8 := 2
def kHostSharesAudio : UInt8 := 4
def kHostAcceptsFiles : UInt8 := 8

structure Hello where
  clientId : UInt32
  maxWidth : UInt16
  maxHeight : UInt16
  features : UInt16
  sourceId : UInt8 := 0
  clientName : Bytes := []
deriving DecidableEq, Repr

inductive RejectReason where
  | none | busy
deriving DecidableEq, Repr

def RejectReason.code : RejectReason → UInt8
  | .none => 0
  | .busy => 1

structure HelloAck where
  sessionId : UInt32
  width : UInt16
  height : UInt16
  fps : UInt8
  bitrateBps : UInt32
  rejected : Bool := false
  reason : RejectReason := .none
deriving DecidableEq, Repr

structure SourceInfo where
  sourceId : UInt8 := 0
  width : UInt16 := 0
  height : UInt16 := 0
  name : Bytes := []
deriving DecidableEq, Repr

structure HostCaps where
  acceptsInput : Bool := false
  terminal : Bool := false
  audio : Bool := false
  files : Bool := false
deriving DecidableEq, Repr

structure PingPong where
  pingId : UInt32
  sendTimeUs : UInt64
deriving DecidableEq, Repr

structure Feedback where
  lossPct : UInt8
  rttMs : UInt16
  recvBitrateKbps : UInt32
deriving DecidableEq, Repr

structure Reconfig where
  width : UInt16
  height : UInt16
  bitrateBps : UInt32
  fps : UInt8 := 0
deriving DecidableEq, Repr

def hostCapFlags (caps : HostCaps) : UInt8 :=
  (if caps.acceptsInput then kHostAcceptsInput else 0) |||
    (if caps.terminal then kHostSharesTerminal else 0) |||
    (if caps.audio then kHostSharesAudio else 0) |||
    (if caps.files then kHostAcceptsFiles else 0)

def hostCapsOfFlags (flags : UInt8) : HostCaps :=
  { acceptsInput := flags &&& kHostAcceptsInput ≠ 0
    terminal := flags &&& kHostSharesTerminal ≠ 0
    audio := flags &&& kHostSharesAudio ≠ 0
    files := flags &&& kHostAcceptsFiles ≠ 0 }

/-! ## Builders -/

def buildHello (cap : Nat) (m : Hello) : Option Bytes :=
  writeCommon cap .hello 0 .control 0
    (putU32 m.clientId ++ putU16 m.maxWidth ++ putU16 m.maxHeight ++ putU16 m.features ++
      [m.sourceId] ++ putText kMaxClientNameBytes m.clientName)

/-- The entry of a source in a list. -/
def sourceEntry (s : SourceInfo) : Bytes :=
  [s.sourceId] ++ putU16 s.width ++ putU16 s.height ++ putText kMaxSourceNameBytes s.name

def buildSourceList (cap : Nat) (sources : List SourceInfo) (caps : HostCaps) (hostName : Bytes) :
    Option Bytes :=
  let n := if sources.length < kMaxSources then sources.length else kMaxSources
  writeCommon cap .sourceList (hostCapFlags caps) .control 0
    ([UInt8.ofNat n] ++ ((sources.take n).map sourceEntry).flatten ++
      putText kMaxClientNameBytes hostName)

def buildHelloAck (cap : Nat) (m : HelloAck) : Option Bytes :=
  writeCommon cap .helloAck 0 .control 0
    (putU32 m.sessionId ++ [if m.rejected then 1 else 0] ++ putU16 m.width ++ putU16 m.height ++
      [m.fps] ++ putU32 m.bitrateBps ++ [m.reason.code])

def buildPingPong (cap : Nat) (type : MsgType) (sessionId : UInt32) (m : PingPong) : Option Bytes :=
  writeCommon cap type 0 .control sessionId (putU32 m.pingId ++ putU64 m.sendTimeUs)

def buildPing (cap : Nat) (sessionId : UInt32) (m : PingPong) : Option Bytes :=
  buildPingPong cap .ping sessionId m

def buildPong (cap : Nat) (sessionId : UInt32) (m : PingPong) : Option Bytes :=
  buildPingPong cap .pong sessionId m

def buildFeedback (cap : Nat) (sessionId : UInt32) (m : Feedback) : Option Bytes :=
  writeCommon cap .feedback 0 .control sessionId
    ([m.lossPct] ++ putU16 m.rttMs ++ putU32 m.recvBitrateKbps)

def buildSetFocus (cap : Nat) (sessionId : UInt32) (focused : Bool) : Option Bytes :=
  writeCommon cap .setFocus 0 .control sessionId [if focused then 1 else 0]

def buildNack (cap : Nat) (sessionId frameId : UInt32) (indices : List UInt16) : Option Bytes :=
  if indices = [] ∨ kMaxNackIndices < indices.length then none
  else
    writeCommon cap .nack 0 .control sessionId
      (putU32 frameId ++ [UInt8.ofNat indices.length] ++ (indices.map putU16).flatten)

def buildInvalidateRef (cap : Nat) (sessionId frameId : UInt32) : Option Bytes :=
  writeCommon cap .invalidateRef 0 .control sessionId (putU32 frameId)

def buildReconfig (cap : Nat) (sessionId : UInt32) (m : Reconfig) : Option Bytes :=
  writeCommon cap .reconfig 0 .control sessionId
    (putU16 m.width ++ putU16 m.height ++ putU32 m.bitrateBps ++ [m.fps])

/-! ## Parsers -/

def parseHello (payload : Bytes) : Option Hello :=
  if payload.length < kHelloFixedBytes then none
  else some
    { clientId := getU32 payload
      maxWidth := getU16 (payload.drop 4)
      maxHeight := getU16 (payload.drop 6)
      features := getU16 (payload.drop 8)
      sourceId := byteAt payload 10
      clientName := readClientName payload 11 }

/-- The loop of `ParseSourceList` over `count` entries, up to the first that does not fit. -/
def parseSourceEntries : Nat → Bytes → List SourceInfo
  | 0, _ => []
  | count + 1, p =>
      if p.length < 6 then []
      else
        let nameLen := (byteAt p 5).toNat
        if p.length < 6 + nameLen then []
        else
          { sourceId := byteAt p 0
            width := getU16 (p.drop 1)
            height := getU16 (p.drop 3)
            name := (p.drop 6).take nameLen } ::
            parseSourceEntries count (p.drop (6 + nameLen))

/-- `ParseSourceList` into a span of `room` sources. -/
def parseSourceList (payload : Bytes) (room : Nat) : List SourceInfo :=
  if payload = [] then []
  else
    let count := (byteAt payload 0).toNat
    let count := if room < count then room else count
    parseSourceEntries count (payload.drop 1)

/-- The loop of `ParseSourceListHostName`: what is behind `count` entries, if they are there. -/
def skipSourceEntries : Nat → Bytes → Option Bytes
  | 0, p => some p
  | count + 1, p =>
      if p.length < 6 then none else skipSourceEntries count (p.drop (6 + (byteAt p 5).toNat))

def parseSourceListHostName (payload : Bytes) : Bytes :=
  if payload = [] then []
  else
    match skipSourceEntries (byteAt payload 0).toNat (payload.drop 1) with
    | none => []
    | some p =>
        if p = [] then []
        else
          let nameLen := (byteAt p 0).toNat
          if kMaxClientNameBytes < nameLen ∨ p.length < 1 + nameLen then []
          else blankControls ((p.drop 1).take nameLen)

/-- The reason of a byte that names one. -/
def RejectReason.ofCode (c : UInt8) : RejectReason := if c = 0 then .none else .busy

def parseHelloAck (payload : Bytes) : Option HelloAck :=
  if payload.length < kHelloAckBytes then none
  else if 1 < byteAt payload 4 ∨ RejectReason.busy.code < byteAt payload 14 then none
  else some
    { sessionId := getU32 payload
      rejected := byteAt payload 4 ≠ 0
      width := getU16 (payload.drop 5)
      height := getU16 (payload.drop 7)
      fps := byteAt payload 9
      bitrateBps := getU32 (payload.drop 10)
      reason := .ofCode (byteAt payload 14) }

def parsePingPong (payload : Bytes) : Option PingPong :=
  if payload.length < 12 then none else some ⟨getU32 payload, getU64 (payload.drop 4)⟩

def parseFeedback (payload : Bytes) : Option Feedback :=
  if payload.length < kFeedbackBytes then none
  else some ⟨byteAt payload 0, getU16 (payload.drop 1), getU32 (payload.drop 3)⟩

def parseReconfig (payload : Bytes) : Option Reconfig :=
  if payload.length < kReconfigBytes then none
  else some ⟨getU16 payload, getU16 (payload.drop 2), getU32 (payload.drop 4), byteAt payload 8⟩

def parseSetFocus (payload : Bytes) : Option Bool :=
  if payload = [] then none else some (byteAt payload 0 ≠ 0)

/-- `ParseNack` into a span of `room` indices: the frame and the indices. -/
def parseNack (payload : Bytes) (room : Nat) : Option (UInt32 × List UInt16) :=
  if payload.length < kNackHeaderSize then none
  else
    let count := (byteAt payload 4).toNat
    if count = 0 then none
    else if payload.length < kNackHeaderSize + count * 2 then none
    else
      let count := if room < count then room else count
      some (getU32 payload, (List.range count).map fun i =>
        getU16 (payload.drop (kNackHeaderSize + i * 2)))

def parseInvalidateRef (payload : Bytes) : Option UInt32 :=
  if payload.length < 4 then none else some (getU32 payload)

/-! ## Round trips -/

theorem parseHello_payload (m : Hello) :
    parseHello (putU32 m.clientId ++ putU16 m.maxWidth ++ putU16 m.maxHeight ++ putU16 m.features ++
        [m.sourceId] ++ putText kMaxClientNameBytes m.clientName) =
      some { m with clientName := removeControls (cutText kMaxClientNameBytes m.clientName) } := by
  have hid : getU32 (putU32 m.clientId ++ putU16 m.maxWidth ++ putU16 m.maxHeight ++
      putU16 m.features ++ [m.sourceId] ++ putText kMaxClientNameBytes m.clientName) = m.clientId :=
    getU32_putU32 m.clientId _
  have hwidth : getU16 ((putU32 m.clientId ++ putU16 m.maxWidth ++ putU16 m.maxHeight ++
      putU16 m.features ++ [m.sourceId] ++ putText kMaxClientNameBytes m.clientName).drop 4) =
      m.maxWidth := getU16_putU16 m.maxWidth _
  have hheight : getU16 ((putU32 m.clientId ++ putU16 m.maxWidth ++ putU16 m.maxHeight ++
      putU16 m.features ++ [m.sourceId] ++ putText kMaxClientNameBytes m.clientName).drop 6) =
      m.maxHeight := getU16_putU16 m.maxHeight _
  have hfeatures : getU16 ((putU32 m.clientId ++ putU16 m.maxWidth ++ putU16 m.maxHeight ++
      putU16 m.features ++ [m.sourceId] ++ putText kMaxClientNameBytes m.clientName).drop 8) =
      m.features := getU16_putU16 m.features _
  have hsource : byteAt (putU32 m.clientId ++ putU16 m.maxWidth ++ putU16 m.maxHeight ++
      putU16 m.features ++ [m.sourceId] ++ putText kMaxClientNameBytes m.clientName) 10 =
      m.sourceId := rfl
  have hname : readClientName (putU32 m.clientId ++ putU16 m.maxWidth ++ putU16 m.maxHeight ++
      putU16 m.features ++ [m.sourceId] ++ putText kMaxClientNameBytes m.clientName) 11 =
      removeControls (cutText kMaxClientNameBytes m.clientName) := readClientName_putText _ _
  unfold parseHello
  rw [if_neg, hid, hwidth, hheight, hfeatures, hsource, hname]
  rw [putText_eq]
  simp [kHelloFixedBytes]
  omega

theorem hostCapsOfFlags_flags (caps : HostCaps) : hostCapsOfFlags (hostCapFlags caps) = caps := by
  rcases caps with ⟨input, terminal, audio, files⟩
  revert input terminal audio files
  decide

theorem parseHelloAck_payload (m : HelloAck) :
    parseHelloAck (putU32 m.sessionId ++ [if m.rejected then 1 else 0] ++ putU16 m.width ++
      putU16 m.height ++ [m.fps] ++ putU32 m.bitrateBps ++ [m.reason.code]) = some m := by
  have hid : getU32 (putU32 m.sessionId ++ [if m.rejected then 1 else 0] ++ putU16 m.width ++
      putU16 m.height ++ [m.fps] ++ putU32 m.bitrateBps ++ [m.reason.code]) = m.sessionId :=
    getU32_putU32 m.sessionId _
  have hrejected : byteAt (putU32 m.sessionId ++ [if m.rejected then 1 else 0] ++ putU16 m.width ++
      putU16 m.height ++ [m.fps] ++ putU32 m.bitrateBps ++ [m.reason.code]) 4 =
      if m.rejected then 1 else 0 := rfl
  have hwidth : getU16 ((putU32 m.sessionId ++ [if m.rejected then 1 else 0] ++ putU16 m.width ++
      putU16 m.height ++ [m.fps] ++ putU32 m.bitrateBps ++ [m.reason.code]).drop 5) = m.width :=
    getU16_putU16 m.width _
  have hheight : getU16 ((putU32 m.sessionId ++ [if m.rejected then 1 else 0] ++ putU16 m.width ++
      putU16 m.height ++ [m.fps] ++ putU32 m.bitrateBps ++ [m.reason.code]).drop 7) = m.height :=
    getU16_putU16 m.height _
  have hfps : byteAt (putU32 m.sessionId ++ [if m.rejected then 1 else 0] ++ putU16 m.width ++
      putU16 m.height ++ [m.fps] ++ putU32 m.bitrateBps ++ [m.reason.code]) 9 = m.fps := rfl
  have hbitrate : getU32 ((putU32 m.sessionId ++ [if m.rejected then 1 else 0] ++ putU16 m.width ++
      putU16 m.height ++ [m.fps] ++ putU32 m.bitrateBps ++ [m.reason.code]).drop 10) =
      m.bitrateBps := getU32_putU32 m.bitrateBps _
  have hreason : byteAt (putU32 m.sessionId ++ [if m.rejected then 1 else 0] ++ putU16 m.width ++
      putU16 m.height ++ [m.fps] ++ putU32 m.bitrateBps ++ [m.reason.code]) 14 = m.reason.code := rfl
  unfold parseHelloAck
  rw [if_neg (by simp [kHelloAckBytes]), hid, hrejected, hwidth, hheight, hfps, hbitrate, hreason]
  rcases m with ⟨sessionId, width, height, fps, bitrateBps, rejected, reason⟩
  cases rejected
  · cases reason
    · rfl
    · rfl
  · cases reason
    · rfl
    · rfl

theorem parsePingPong_payload (m : PingPong) :
    parsePingPong (putU32 m.pingId ++ putU64 m.sendTimeUs) = some m := by
  have hid : getU32 (putU32 m.pingId ++ putU64 m.sendTimeUs) = m.pingId := getU32_putU32 m.pingId _
  have htime : getU64 ((putU32 m.pingId ++ putU64 m.sendTimeUs).drop 4) = m.sendTimeUs :=
    getU64_putU64 m.sendTimeUs []
  unfold parsePingPong
  rw [if_neg (by simp), hid, htime]

theorem parseFeedback_payload (m : Feedback) :
    parseFeedback ([m.lossPct] ++ putU16 m.rttMs ++ putU32 m.recvBitrateKbps) = some m := by
  have hloss : byteAt ([m.lossPct] ++ putU16 m.rttMs ++ putU32 m.recvBitrateKbps) 0 = m.lossPct := rfl
  have hrtt : getU16 (([m.lossPct] ++ putU16 m.rttMs ++ putU32 m.recvBitrateKbps).drop 1) =
      m.rttMs := getU16_putU16 m.rttMs _
  have hrate : getU32 (([m.lossPct] ++ putU16 m.rttMs ++ putU32 m.recvBitrateKbps).drop 3) =
      m.recvBitrateKbps := getU32_putU32 m.recvBitrateKbps []
  unfold parseFeedback
  rw [if_neg (by simp [kFeedbackBytes]), hloss, hrtt, hrate]

theorem parseReconfig_payload (m : Reconfig) :
    parseReconfig (putU16 m.width ++ putU16 m.height ++ putU32 m.bitrateBps ++ [m.fps]) = some m := by
  have hwidth : getU16 (putU16 m.width ++ putU16 m.height ++ putU32 m.bitrateBps ++ [m.fps]) =
      m.width := getU16_putU16 m.width _
  have hheight : getU16 ((putU16 m.width ++ putU16 m.height ++ putU32 m.bitrateBps ++
      [m.fps]).drop 2) = m.height := getU16_putU16 m.height _
  have hrate : getU32 ((putU16 m.width ++ putU16 m.height ++ putU32 m.bitrateBps ++
      [m.fps]).drop 4) = m.bitrateBps := getU32_putU32 m.bitrateBps _
  have hfps : byteAt (putU16 m.width ++ putU16 m.height ++ putU32 m.bitrateBps ++ [m.fps]) 8 =
      m.fps := rfl
  unfold parseReconfig
  rw [if_neg (by simp [kReconfigBytes]), hwidth, hheight, hrate, hfps]

theorem parseSetFocus_payload (focused : Bool) :
    parseSetFocus [if focused then 1 else 0] = some focused := by
  cases focused
  · rfl
  · rfl

theorem parseInvalidateRef_payload (frameId : UInt32) :
    parseInvalidateRef (putU32 frameId) = some frameId := by
  unfold parseInvalidateRef
  rw [if_neg (by simp)]
  exact congrArg some (getU32_putU32 frameId [])

/-- The numbers of a list, one behind the other. -/
theorem getU16_flatten (indices : List UInt16) (rest : Bytes) :
    ((List.range indices.length).map fun i =>
      getU16 (((indices.map putU16).flatten ++ rest).drop (i * 2))) = indices := by
  induction indices with
  | nil => rfl
  | cons index indices ih =>
    have hshift : ∀ i, getU16
        ((((index :: indices).map putU16).flatten ++ rest).drop ((i + 1) * 2)) =
        getU16 (((indices.map putU16).flatten ++ rest).drop (i * 2)) := by
      intro i
      have hskip : (i + 1) * 2 = (putU16 index).length + i * 2 := by
        rw [length_putU16]
        omega
      rw [hskip, List.map_cons, List.flatten_cons, List.append_assoc, ← List.drop_drop, List.drop_left]
    have hfirst : getU16 ((((index :: indices).map putU16).flatten ++ rest).drop (0 * 2)) = index := by
      rw [List.map_cons, List.flatten_cons, List.append_assoc]
      exact getU16_putU16 index _
    rw [List.length_cons, List.range_succ_eq_map, List.map_cons, List.map_map, hfirst]
    refine congrArg (index :: ·) (Eq.trans ?_ ih)
    apply List.map_congr_left
    intro i _
    exact hshift i

theorem parseNack_payload (frameId : UInt32) {indices : List UInt16} (hne : indices ≠ [])
    (hmax : indices.length ≤ kMaxNackIndices) {room : Nat} (hroom : indices.length ≤ room) :
    parseNack (putU32 frameId ++ [UInt8.ofNat indices.length] ++ (indices.map putU16).flatten) room =
      some (frameId, indices) := by
  have hpos : 0 < indices.length := List.length_pos_of_ne_nil hne
  have hlimit : kMaxNackIndices = 255 := rfl
  have hframe : getU32 (putU32 frameId ++ [UInt8.ofNat indices.length] ++
      (indices.map putU16).flatten) = frameId := getU32_putU32 frameId _
  have hcount : (byteAt (putU32 frameId ++ [UInt8.ofNat indices.length] ++
      (indices.map putU16).flatten) 4).toNat = indices.length := by
    show (UInt8.ofNat indices.length).toNat = indices.length
    rw [UInt8.toNat_ofNat', Nat.mod_eq_of_lt (by omega)]
  have hlen : (putU32 frameId ++ [UInt8.ofNat indices.length] ++
      (indices.map putU16).flatten).length = kNackHeaderSize + indices.length * 2 := by
    have hflat : (indices.map putU16).flatten.length = indices.length * 2 := by
      simp [List.length_flatten, Function.comp_def]
    rw [List.length_append, hflat]
    rfl
  have hdrop : ∀ i, (putU32 frameId ++ [UInt8.ofNat indices.length] ++
      (indices.map putU16).flatten).drop (kNackHeaderSize + i * 2) =
      ((indices.map putU16).flatten ++ []).drop (i * 2) := by
    intro i
    rw [← List.drop_drop, List.append_nil]
    rfl
  unfold parseNack
  rw [hlen]
  dsimp only
  rw [hcount, if_neg (by omega), if_neg (by omega), if_neg (by omega), if_neg (by omega), hframe]
  simp only [hdrop, getU16_flatten]

/-! ## The list of sources -/

/-- A source as its entry carries it. -/
def SourceInfo.cut (s : SourceInfo) : SourceInfo :=
  { s with name := cutText kMaxSourceNameBytes s.name }

/-- The entry of a source with anything behind it. -/
theorem sourceEntry_append (s : SourceInfo) (rest : Bytes) :
    sourceEntry s ++ rest = ([s.sourceId] ++ putU16 s.width ++ putU16 s.height) ++
      (putText kMaxSourceNameBytes s.name ++ rest) := by
  unfold sourceEntry
  rw [List.append_assoc]

/-- The length byte of an entry, what is behind it, and how much there is at least. -/
theorem sourceEntry_name (s : SourceInfo) (rest : Bytes) :
    (byteAt (sourceEntry s ++ rest) 5).toNat = s.cut.name.length ∧
      (sourceEntry s ++ rest).drop 6 = s.cut.name ++ rest ∧
      6 + s.cut.name.length ≤ (sourceEntry s ++ rest).length := by
  have hname : s.cut.name = cutText kMaxSourceNameBytes s.name := rfl
  have hlen := toNat_lengthByte kMaxSourceNameBytes (by decide)
    ([s.sourceId] ++ putU16 s.width ++ putU16 s.height) s.name rest
  have hdrop := drop_putText kMaxSourceNameBytes
    ([s.sourceId] ++ putU16 s.width ++ putU16 s.height) s.name rest
  rw [sourceEntry_append]
  refine ⟨hlen, hdrop, ?_⟩
  rw [putText_eq, hname]
  simp only [List.length_append, List.length_cons, List.length_nil, length_putU16]
  omega

theorem drop_sourceEntry (s : SourceInfo) (rest : Bytes) :
    (sourceEntry s ++ rest).drop (6 + s.cut.name.length) = rest := by
  rw [← List.drop_drop, (sourceEntry_name s rest).2.1, List.drop_left]

theorem parseSourceEntries_entries (sources : List SourceInfo) (rest : Bytes) :
    parseSourceEntries sources.length ((sources.map sourceEntry).flatten ++ rest) =
      sources.map SourceInfo.cut := by
  induction sources with
  | nil => rfl
  | cons s sources ih =>
    have hentry : ((s :: sources).map sourceEntry).flatten ++ rest =
        sourceEntry s ++ ((sources.map sourceEntry).flatten ++ rest) := by
      rw [List.map_cons, List.flatten_cons, List.append_assoc]
    rcases sourceEntry_name s ((sources.map sourceEntry).flatten ++ rest) with ⟨hlen, hdrop, hsize⟩
    have hwidth : getU16 ((sourceEntry s ++ ((sources.map sourceEntry).flatten ++ rest)).drop 1) =
        s.width := getU16_putU16 s.width _
    have hheight : getU16 ((sourceEntry s ++ ((sources.map sourceEntry).flatten ++ rest)).drop 3) =
        s.height := getU16_putU16 s.height _
    have hid : byteAt (sourceEntry s ++ ((sources.map sourceEntry).flatten ++ rest)) 0 =
        s.sourceId := rfl
    rw [hentry, List.length_cons, parseSourceEntries]
    dsimp only
    rw [hlen, hwidth, hheight, hid, hdrop, if_neg (by omega), if_neg (by omega), List.take_left,
      drop_sourceEntry, ih]
    rfl

theorem skipSourceEntries_entries (sources : List SourceInfo) (rest : Bytes) :
    skipSourceEntries sources.length ((sources.map sourceEntry).flatten ++ rest) = some rest := by
  induction sources with
  | nil => rfl
  | cons s sources ih =>
    have hentry : ((s :: sources).map sourceEntry).flatten ++ rest =
        sourceEntry s ++ ((sources.map sourceEntry).flatten ++ rest) := by
      rw [List.map_cons, List.flatten_cons, List.append_assoc]
    rcases sourceEntry_name s ((sources.map sourceEntry).flatten ++ rest) with ⟨hlen, -, hsize⟩
    rw [hentry, List.length_cons, skipSourceEntries, hlen, if_neg (by omega), drop_sourceEntry, ih]

section SourceList

variable {sources : List SourceInfo} (hmax : sources.length ≤ kMaxSources) (hostName : Bytes)

include hmax

theorem sourceCount_eq :
    (byteAt ([UInt8.ofNat sources.length] ++ (sources.map sourceEntry).flatten ++
      putText kMaxClientNameBytes hostName) 0).toNat = sources.length := by
  have hlimit : kMaxSources = 8 := rfl
  show (UInt8.ofNat sources.length).toNat = sources.length
  rw [UInt8.toNat_ofNat', Nat.mod_eq_of_lt (by omega)]

theorem parseSourceList_payload {room : Nat} (hroom : sources.length ≤ room) :
    parseSourceList ([UInt8.ofNat sources.length] ++ (sources.map sourceEntry).flatten ++
      putText kMaxClientNameBytes hostName) room = sources.map SourceInfo.cut := by
  unfold parseSourceList
  rw [if_neg (by simp)]
  dsimp only
  rw [sourceCount_eq hmax, if_neg (by omega)]
  exact parseSourceEntries_entries sources _

theorem parseSourceListHostName_payload :
    parseSourceListHostName ([UInt8.ofNat sources.length] ++ (sources.map sourceEntry).flatten ++
      putText kMaxClientNameBytes hostName) =
      blankControls (cutText kMaxClientNameBytes hostName) := by
  have hshort := length_cutText_le kMaxClientNameBytes hostName
  have hlimit : kMaxClientNameBytes = 64 := rfl
  have hdrop : ([UInt8.ofNat sources.length] ++ (sources.map sourceEntry).flatten ++
      putText kMaxClientNameBytes hostName).drop 1 =
      (sources.map sourceEntry).flatten ++ putText kMaxClientNameBytes hostName := rfl
  have hlen : (UInt8.ofNat (cutText kMaxClientNameBytes hostName).length).toNat =
      (cutText kMaxClientNameBytes hostName).length := toNat_length (by omega)
  unfold parseSourceListHostName
  rw [if_neg (by simp), sourceCount_eq hmax, hdrop, skipSourceEntries_entries, putText_eq]
  dsimp only
  rw [if_neg (List.cons_ne_nil _ _)]
  have hbyte : byteAt (UInt8.ofNat (cutText kMaxClientNameBytes hostName).length ::
      cutText kMaxClientNameBytes hostName) 0 =
      UInt8.ofNat (cutText kMaxClientNameBytes hostName).length := rfl
  rw [hbyte, hlen, if_neg, List.drop_one, List.tail_cons, List.take_length]
  rintro (hlong | hcut)
  · omega
  · rw [List.length_cons] at hcut
    omega

end SourceList

end Deskhub
