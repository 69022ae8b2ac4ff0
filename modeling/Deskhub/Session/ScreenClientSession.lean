import Deskhub.Input.InputSender
import Deskhub.Lib.Machine
import Deskhub.Session.ClipboardSync
import Deskhub.Session.ScreenHostSession

/-!
# The viewer's end of a screen session

`ScreenClientSession`: says hello until the host answers, asks it to start, keeps the link
alive and carries input, focus and the clipboard. It ends when the host rejects it, falls
silent or says goodbye, or when it says goodbye itself. All callbacks are set; a call makes
them in order, and here they are its outputs.
-/

namespace Deskhub

def kHelloRetryUs : UInt64 := 500000
def kHelloGiveUpUs : UInt64 := 10000000
def kPingIntervalUs : UInt64 := 1000000
def kKeyframeRetryUs : UInt64 := 250000
def kFocusRetryUs : UInt64 := 50000
def kFocusRepeats : Nat := 3

structure NegotiatedParams where
  width : UInt16 := 0
  height : UInt16 := 0
  fps : UInt8 := 60
  bitrateBps : UInt32 := 0
deriving DecidableEq, Repr

inductive ScreenSessionEnd where
  | hostBye | timeout | rejected | connectTimeout
deriving DecidableEq, Repr

/-- The callbacks of a session. -/
inductive ScreenClientEvent where
  | send (packet : Bytes)
  | ready (params : NegotiatedParams)
  | reconfig (params : NegotiatedParams)
  | rtt (rttUs : UInt32)
  | disconnect (reason : String) (cause : ScreenSessionEnd)
  | clipboardText (text : Bytes)
deriving DecidableEq

inductive ScreenClientState where
  | idle | hello | starting | streaming | dead
deriving DecidableEq, Repr

structure ScreenClientSession where
  input : InputSender := {}
  clip : ClipboardSync := {}
  state : ScreenClientState := .idle
  sessionId : UInt32 := 0
  hello : Hello := { clientId := 0, maxWidth := 0, maxHeight := 0, features := 0 }
  params : NegotiatedParams := {}
  startedUs : UInt64 := 0
  lastSentUs : UInt64 := 0
  lastRecvUs : UInt64 := 0
  lastPingUs : UInt64 := 0
  lastKeyframeReqUs : UInt64 := 0
  lastFocusUs : UInt64 := 0
  focusRepeatsLeft : Nat := 0
  focusWanted : Bool := false
  focusSent : Bool := false
  nextPingId : UInt32 := 1
  lastRttUs : UInt32 := 0
  keyframeWanted : Bool := false

namespace ScreenClientSession

/-- A packet is sent when it could be built. -/
def sent (packet : Option Bytes) : List ScreenClientEvent := (packet.map ScreenClientEvent.send).toList

def sendHello (s : ScreenClientSession) : List ScreenClientEvent :=
  sent (buildHello kMaxDatagram s.hello)

def sendStart (s : ScreenClientSession) : List ScreenClientEvent :=
  sent (buildEmpty kMaxDatagram .start s.sessionId)

def die (s : ScreenClientSession) (reason : String) (cause : ScreenSessionEnd) :
    ScreenClientSession × List ScreenClientEvent :=
  ({ s with state := .dead }, [.disconnect reason cause])

def start (s : ScreenClientSession) (hello : Hello) (nowUs : UInt64) :
    ScreenClientSession × List ScreenClientEvent :=
  let s := { s with
    hello := hello, state := .hello, startedUs := nowUs, lastRecvUs := nowUs, lastSentUs := nowUs }
  (s, s.sendHello)

/-- The host's answer, while the session waits for it. -/
def handleHelloAck (s : ScreenClientSession) (m : HelloAck) (nowUs : UInt64) :
    ScreenClientSession × List ScreenClientEvent × Bool :=
  if s.state ≠ .hello then (s, [], true)
  else if m.rejected then
    let (s, out) := s.die
      (if m.reason = .busy then "the host already has as many viewers as it can take"
        else "host rejected") .rejected
    (s, out, false)
  else
    let s := { s with
      sessionId := m.sessionId
      clip := s.clip.forgetReceived
      params := { width := m.width, height := m.height, fps := m.fps, bitrateBps := m.bitrateBps }
      state := .starting
      lastRecvUs := nowUs
      lastSentUs := nowUs }
    (s, [.ready s.params] ++ s.sendStart, true)

def handlePong (s : ScreenClientSession) (payload : Bytes) (sessionId : UInt32) (nowUs : UInt64) :
    ScreenClientSession × List ScreenClientEvent × Bool :=
  if s.state = .idle ∨ s.state = .dead then (s, [], false)
  else if sessionId ≠ s.sessionId then (s, [], false)
  else
    match parsePingPong payload with
    | none => (s, [], false)
    | some m =>
        let rttUs := (nowUs - m.sendTimeUs).toUInt32
        ({ s with lastRecvUs := nowUs, lastRttUs := rttUs }, [.rtt rttUs], true)

/-- What a RECONFIG leaves of the parameters. -/
def reconfigured (params : NegotiatedParams) (m : Reconfig) : NegotiatedParams :=
  let params := if m.fps ≠ 0 then { params with fps := m.fps } else params
  let params :=
    if m.width ≠ 0 ∧ m.height ≠ 0 then { params with width := m.width, height := m.height }
    else params
  if m.bitrateBps ≠ 0 then { params with bitrateBps := m.bitrateBps } else params

def handleReconfig (s : ScreenClientSession) (payload : Bytes) (nowUs : UInt64) :
    ScreenClientSession × List ScreenClientEvent × Bool :=
  if s.state ≠ .starting ∧ s.state ≠ .streaming then (s, [], false)
  else
    match parseReconfig payload with
    | none => (s, [], false)
    | some m =>
        let params := reconfigured s.params m
        let out := if params = s.params then [] else [ScreenClientEvent.reconfig params]
        ({ s with lastRecvUs := nowUs, params := params }, out, true)

def handleClipboard (s : ScreenClientSession) (payload : Bytes) (nowUs : UInt64) :
    ScreenClientSession × List ScreenClientEvent × Bool :=
  if s.state ≠ .starting ∧ s.state ≠ .streaming then (s, [], false)
  else
    match parseClipboardChunk payload with
    | none => (s, [], false)
    | some chunk =>
        let (clip, complete) := s.clip.accept chunk
        if complete then
          let (clip, text) := clip.takeCompleted
          ({ s with lastRecvUs := nowUs, clip := clip },
            (text.map ScreenClientEvent.clipboardText).toList, true)
        else ({ s with lastRecvUs := nowUs, clip := clip }, [], true)

/-- The packet names the session. -/
def inSession (s : ScreenClientSession) (sessionId : UInt32) : Bool :=
  sessionId = s.sessionId && s.sessionId ≠ 0

def handlePacket (s : ScreenClientSession) (pkt : Bytes) (nowUs : UInt64) :
    ScreenClientSession × List ScreenClientEvent × Bool :=
  match parseCommonHeader pkt with
  | none => (s, [], false)
  | some h =>
      let payload := payloadOf pkt
      match h.type with
      | .helloAck =>
          match parseHelloAck payload with
          | none => (s, [], false)
          | some m => s.handleHelloAck m nowUs
      | .pong => s.handlePong payload h.sessionId nowUs
      | .reconfig =>
          if !s.inSession h.sessionId then (s, [], false) else s.handleReconfig payload nowUs
      | .bye =>
          if !s.inSession h.sessionId then (s, [], false)
          else
            let (s, out) := s.die "host ended the session (BYE)" .hostBye
            (s, out, false)
      | .clipboard =>
          if !s.inSession h.sessionId then (s, [], false) else s.handleClipboard payload nowUs
      | _ => (s, [], false)

def notifyVideoPacket (s : ScreenClientSession) (nowUs : UInt64) : ScreenClientSession :=
  let s := if s.state = .starting then { s with state := .streaming } else s
  if s.state = .streaming then { s with lastRecvUs := nowUs } else s

def queueInput (s : ScreenClientSession) (ev : InputEvent) : ScreenClientSession :=
  if s.state ≠ .streaming then s
  else { s with input := (s.input.setSessionId s.sessionId).queue ev }

def queueClipboard (s : ScreenClientSession) (text : Bytes) : ScreenClientSession :=
  if s.state ≠ .streaming then s
  else { s with clip := ((s.clip.setSessionId s.sessionId).offerLocal text).1 }

def setFocused (s : ScreenClientSession) (on : Bool) : ScreenClientSession :=
  if s.focusWanted = on ∧ s.focusSent = on then s
  else { s with focusWanted := on, focusRepeatsLeft := kFocusRepeats, lastFocusUs := 0 }

def requestKeyframe (s : ScreenClientSession) : ScreenClientSession :=
  { s with keyframeWanted := true }

def cancelKeyframeRequest (s : ScreenClientSession) : ScreenClientSession :=
  { s with keyframeWanted := false }

def tickPing (s : ScreenClientSession) (nowUs : UInt64) :
    ScreenClientSession × List ScreenClientEvent :=
  if nowUs - s.lastPingUs < kPingIntervalUs then (s, [])
  else
    ({ s with lastPingUs := nowUs, nextPingId := s.nextPingId + 1 },
      sent (buildPing kMaxDatagram s.sessionId ⟨s.nextPingId, nowUs⟩))

def tickFocus (s : ScreenClientSession) (nowUs : UInt64) :
    ScreenClientSession × List ScreenClientEvent :=
  if s.state = .streaming ∧ 0 < s.focusRepeatsLeft ∧ kFocusRetryUs ≤ nowUs - s.lastFocusUs then
    ({ s with
        lastFocusUs := nowUs
        focusRepeatsLeft := s.focusRepeatsLeft - 1
        focusSent := s.focusWanted },
      sent (buildSetFocus kMaxDatagram s.sessionId s.focusWanted))
  else (s, [])

def tickFlush (s : ScreenClientSession) (nowUs : UInt64) :
    ScreenClientSession × List ScreenClientEvent :=
  if s.state = .streaming then
    let (input, events) := s.input.flush nowUs true
    let (clip, chunks) := s.clip.flush nowUs true
    ({ s with input := input, clip := clip },
      events.map ScreenClientEvent.send ++ chunks.map ScreenClientEvent.send)
  else (s, [])

def tickKeyframe (s : ScreenClientSession) (nowUs : UInt64) :
    ScreenClientSession × List ScreenClientEvent :=
  if s.keyframeWanted ∧ s.state = .streaming ∧ kKeyframeRetryUs ≤ nowUs - s.lastKeyframeReqUs then
    ({ s with lastKeyframeReqUs := nowUs },
      sent (buildEmpty kMaxDatagram .requestKeyframe s.sessionId))
  else (s, [])

/-- The part of `Tick` for a session that the host has answered. -/
def tickRunning (s : ScreenClientSession) (nowUs : UInt64) :
    ScreenClientSession × List ScreenClientEvent :=
  if kSessionTimeoutUs < nowUs - s.lastRecvUs then
    s.die "lost contact with host (timeout)" .timeout
  else
    let (s, ping) := s.tickPing nowUs
    let (s, focus) := s.tickFocus nowUs
    let (s, flushed) := s.tickFlush nowUs
    let (s, keyframe) := s.tickKeyframe nowUs
    (s, ping ++ focus ++ flushed ++ keyframe)

def tick (s : ScreenClientSession) (nowUs : UInt64) :
    ScreenClientSession × List ScreenClientEvent :=
  match s.state with
  | .idle | .dead => (s, [])
  | .hello =>
      if kHelloGiveUpUs < nowUs - s.startedUs then
        s.die "could not connect (timed out)" .connectTimeout
      else if kHelloRetryUs ≤ nowUs - s.lastSentUs then
        ({ s with lastSentUs := nowUs }, s.sendHello)
      else (s, [])
  | .starting =>
      let (s, asked) :=
        if kHelloRetryUs ≤ nowUs - s.lastSentUs then ({ s with lastSentUs := nowUs }, s.sendStart)
        else (s, [])
      let (s, out) := s.tickRunning nowUs
      (s, asked ++ out)
  | .streaming => s.tickRunning nowUs

def sendFeedback (s : ScreenClientSession) (fb : Feedback) : List ScreenClientEvent :=
  if s.state ≠ .streaming then [] else sent (buildFeedback kMaxDatagram s.sessionId fb)

def sendNack (s : ScreenClientSession) (frameId : UInt32) (indices : List UInt16) :
    List ScreenClientEvent :=
  if s.state ≠ .streaming ∨ indices = [] then []
  else sent (buildNack kMaxDatagram s.sessionId frameId indices)

def sendInvalidateRef (s : ScreenClientSession) (frameId : UInt32) : List ScreenClientEvent :=
  if s.state ≠ .streaming then [] else sent (buildInvalidateRef kMaxDatagram s.sessionId frameId)

def sendBye (s : ScreenClientSession) : ScreenClientSession × List ScreenClientEvent :=
  let out :=
    if s.state = .starting ∨ s.state = .streaming then
      sent (buildEmpty kMaxDatagram .bye s.sessionId)
    else []
  ({ s with state := .dead }, out)

end ScreenClientSession

/-- The calls of a session, but for its start. -/
inductive ScreenClientCall where
  | handlePacket (pkt : Bytes) (nowUs : UInt64)
  | notifyVideoPacket (nowUs : UInt64)
  | tick (nowUs : UInt64)
  | queueInput (ev : InputEvent)
  | queueClipboard (text : Bytes)
  | setFocused (on : Bool)
  | requestKeyframe
  | cancelKeyframeRequest
  | sendFeedback (fb : Feedback)
  | sendNack (frameId : UInt32) (indices : List UInt16)
  | sendInvalidateRef (frameId : UInt32)
  | sendBye

def screenClientSession : Machine ScreenClientSession ScreenClientCall ScreenClientEvent where
  step s
    | .handlePacket pkt nowUs => ((s.handlePacket pkt nowUs).1, (s.handlePacket pkt nowUs).2.1)
    | .notifyVideoPacket nowUs => (s.notifyVideoPacket nowUs, [])
    | .tick nowUs => s.tick nowUs
    | .queueInput ev => (s.queueInput ev, [])
    | .queueClipboard text => (s.queueClipboard text, [])
    | .setFocused on => (s.setFocused on, [])
    | .requestKeyframe => (s.requestKeyframe, [])
    | .cancelKeyframeRequest => (s.cancelKeyframeRequest, [])
    | .sendFeedback fb => (s, s.sendFeedback fb)
    | .sendNack frameId indices => (s, s.sendNack frameId indices)
    | .sendInvalidateRef frameId => (s, s.sendInvalidateRef frameId)
    | .sendBye => s.sendBye

end Deskhub
