import Deskhub.Session.ScreenClientSession
import Deskhub.Transport.Reassembler

/-!
# The viewer's screen

`ScreenClient`: a session of the viewer with the reassembler of its frames. Video and audio are
taken for the session alone; the frames that are ready go to the decoder, and what is lost is
asked for again, or a keyframe in its place. All callbacks are set, and are outputs here. The
window statistics are left to the outside: a tick is given the report that is due at it.
-/

namespace Deskhub

def kDefaultClientFps : UInt8 := 60
def kNackBatchMax : Nat := 64

structure ScreenClientConfig where
  clientId : UInt32 := 0
  maxWidth : UInt16 := 0
  maxHeight : UInt16 := 0
  sourceId : UInt8 := 0
  sendNacks : Bool := false
  wantsAudio : Bool := false
  displayName : Bytes := []
deriving DecidableEq, Repr

/-- The callbacks of a screen, and the line it logs for a dropped frame. -/
inductive ScreenCallback where
  | send (packet : Bytes)
  | params (params : NegotiatedParams) (reconfigured : Bool)
  | clipboardText (text : Bytes)
  | ended (reason : String) (cause : ScreenSessionEnd)
  | frame (frame : Frame)
  | audioPacket (packet : AudioPacketView)
  | frameDrop (info : FrameDropInfo)
deriving DecidableEq

structure ScreenClient where
  cfg : ScreenClientConfig := {}
  session : ScreenClientSession := {}
  reasm : Option Reassembler := none
  /-- `diag_.minRttUs`, zero before the first measure. -/
  minRttUs : UInt32 := 0

/-- `TakeMaxGapMs`. -/
def Reassembler.takeMaxGapMs (s : Reassembler) : Reassembler × UInt32 :=
  ({ s with maxGapMs := 0 }, s.maxGapMs)

namespace ScreenClient

/-! ## Callbacks -/

/-- `RunningMin::Add`. -/
def addRtt (s : ScreenClient) (rttUs : UInt32) : ScreenClient :=
  if rttUs ≠ 0 ∧ (s.minRttUs = 0 ∨ rttUs < s.minRttUs) then { s with minRttUs := rttUs } else s

/-- `MakeSessionCallbacks`: what each callback of the session does. -/
def onSession (s : ScreenClient) : ScreenClientEvent → ScreenClient × List ScreenCallback
  | .send packet => (s, [.send packet])
  | .ready params => (s, [.params params false])
  | .reconfig params =>
      ({ s with reasm := s.reasm.map fun r => r.setFps params.fps.toUInt32 }, [.params params true])
  | .rtt rttUs =>
      let s := s.addRtt rttUs
      ({ s with reasm := s.reasm.map fun r => r.setRttUs s.minRttUs.toUInt64 }, [])
  | .clipboardText text => (s, [.clipboardText text])
  | .disconnect reason cause => (s, [.ended reason cause])

def onSessionAll : ScreenClient → List ScreenClientEvent → ScreenClient × List ScreenCallback
  | s, [] => (s, [])
  | s, e :: es =>
      let (s, out) := s.onSession e
      let (s, more) := onSessionAll s es
      (s, out ++ more)

/-- A call of the session, and the callbacks it makes. -/
def withSession (s : ScreenClient) (call : ScreenClientSession × List ScreenClientEvent) :
    ScreenClient × List ScreenCallback :=
  { s with session := call.1 }.onSessionAll call.2

/-- The callbacks that `EnsureReassembler` sets. -/
def onReassembler (s : ScreenClient) : ReassemblerEvent → ScreenClient × List ScreenCallback
  | .frameDrop info => (s, [.frameDrop info])
  | .referenceLost frameId => s.onSessionAll (s.session.sendInvalidateRef frameId)
  | .returned _ => (s, [])

def onReassemblerAll : ScreenClient → List ReassemblerEvent → ScreenClient × List ScreenCallback
  | s, [] => (s, [])
  | s, e :: es =>
      let (s, out) := s.onReassembler e
      let (s, more) := onReassemblerAll s es
      (s, out ++ more)

/-- A call of the reassembler, and the callbacks it makes. -/
def withReassembler (s : ScreenClient) (r : Reassembler × List ReassemblerEvent) :
    ScreenClient × List ScreenCallback :=
  { s with reasm := some r.1 }.onReassemblerAll r.2

/-! ## Calls -/

def start (s : ScreenClient) (cfg : ScreenClientConfig) (nowUs : UInt64) :
    ScreenClient × List ScreenCallback :=
  let hello : Hello :=
    { clientId := cfg.clientId
      maxWidth := cfg.maxWidth
      maxHeight := cfg.maxHeight
      features := if cfg.wantsAudio then kClientWantsAudio else 0
      sourceId := cfg.sourceId
      clientName := cfg.displayName }
  { s with cfg := cfg, reasm := none }.withSession (s.session.start hello nowUs)

/-- `EnsureReassembler`: the one there is, or a new one. -/
def ensureReassembler (s : ScreenClient) : Reassembler :=
  match s.reasm with
  | some r => r
  | none =>
      let fps := if s.session.params.fps ≠ 0 then s.session.params.fps else kDefaultClientFps
      (Reassembler.create (1000000 / fps.toUInt64)).setRttUs s.minRttUs.toUInt64

def onAudio (s : ScreenClient) (h : CommonHeader) (pkt : Bytes) (nowUs : UInt64) :
    ScreenClient × List ScreenCallback :=
  if !s.session.inSession h.sessionId then (s, [])
  else if !s.cfg.wantsAudio then (s, [])
  else
    match parseAudioPacket (payloadOf pkt) with
    | none => (s, [])
    | some v => ({ s with session := s.session.notifyVideoPacket nowUs }, [.audioPacket v])

def onVideo (s : ScreenClient) (h : CommonHeader) (pkt : Bytes) (nowUs : UInt64) :
    ScreenClient × List ScreenCallback :=
  if !s.session.inSession h.sessionId then (s, [])
  else
    let r := s.ensureReassembler
    if h.type = .fecPacket then
      match parseFecPacket h (payloadOf pkt) with
      | none => ({ s with reasm := some r }, [])
      | some v =>
          { s with session := s.session.notifyVideoPacket nowUs }.withReassembler (r.pushFec v nowUs)
    else
      match parseVideoPacket h (payloadOf pkt) with
      | none => ({ s with reasm := some r }, [])
      | some v =>
          { s with session := s.session.notifyVideoPacket nowUs }.withReassembler (r.push v nowUs)

def onDatagram (s : ScreenClient) (pkt : Bytes) (nowUs : UInt64) : ScreenClient × List ScreenCallback :=
  match parseCommonHeader pkt with
  | none => (s, [])
  | some h =>
      if h.chan = .audio then s.onAudio h pkt nowUs
      else if h.chan ≠ .video then
        s.withSession ((s.session.handlePacket pkt nowUs).1, (s.session.handlePacket pkt nowUs).2.1)
      else s.onVideo h pkt nowUs

/-- The reason is for the log alone. -/
def requestKeyframe (s : ScreenClient) : ScreenClient :=
  { s with session := s.session.requestKeyframe }

def planNacks (s : ScreenClient) (nowUs : UInt64) : ScreenClient × List ScreenCallback :=
  if !s.cfg.sendNacks then (s, [])
  else
    match s.reasm with
    | none => (s, [])
    | some r =>
        let (r, plan) := r.planNack nowUs s.minRttUs.toUInt64 kNackBatchMax
        let s := { s with reasm := some r }
        match plan with
        | none => (s, [])
        | some (frameId, indices) => s.onSessionAll (s.session.sendNack frameId indices)

/-- A frame that has come out: a keyframe is what was asked for. -/
def tookFrame (s : ScreenClient) (f : Frame) : ScreenClient :=
  if f.idr then { s with session := s.session.cancelKeyframeRequest } else s

/-- The loop of `PollFrames`; the fuel is the number of pending frames. -/
def popFrames : Nat → ScreenClient → UInt64 → ScreenClient × List ScreenCallback
  | 0, s, _ => (s, [])
  | n + 1, s, nowUs =>
      match s.reasm with
      | none => (s, [])
      | some r =>
          let (r, dropped, frame) := r.popReady nowUs
          let (s, out) := s.withReassembler (r, dropped)
          match frame with
          | none => (s, out)
          | some f =>
              let (s, more) := popFrames n (s.tookFrame f) nowUs
              (s, out ++ .frame f :: more)

/-- The end of `PollFrames`. -/
def askForKeyframe (s : ScreenClient) : ScreenClient :=
  match s.reasm with
  | none => s
  | some r =>
      let (r, lost) := r.takeLossEvent
      let s := { s with reasm := some r }
      if lost then s.requestKeyframe else if r.waitingForIdr then s.requestKeyframe else s

def pollFrames (s : ScreenClient) (nowUs : UInt64) : ScreenClient × List ScreenCallback :=
  match s.reasm with
  | none => (s, [])
  | some r =>
      let (s, out) := s.popFrames r.pending.size nowUs
      (s.askForKeyframe, out)

/-- `Report`, with the feedback that the statistics come to. -/
def report (s : ScreenClient) (fb : Feedback) : ScreenClient × List ScreenCallback :=
  let (s, out) := s.onSessionAll (s.session.sendFeedback fb)
  ({ s with reasm := s.reasm.map fun r => r.takeMaxGapMs.1 }, out)

def tick (s : ScreenClient) (nowUs : UInt64) (due : Option Feedback) : ScreenClient × List ScreenCallback :=
  let (s, out) := s.withSession (s.session.tick nowUs)
  if s.session.state = .dead then (s, out)
  else
    match due with
    | none => (s, out)
    | some fb =>
        let (s, told) := s.report fb
        (s, out ++ told)

end ScreenClient

/-- The calls of a screen. -/
inductive ScreenClientInput where
  | start (cfg : ScreenClientConfig) (nowUs : UInt64)
  | onDatagram (pkt : Bytes) (nowUs : UInt64)
  | pollFrames (nowUs : UInt64)
  | requestKeyframe
  | planNacks (nowUs : UInt64)
  | queueInput (ev : InputEvent)
  | queueClipboard (text : Bytes)
  | setFocused (on : Bool)
  | tick (nowUs : UInt64) (due : Option Feedback)
  | sendBye

def screenClient : Machine ScreenClient ScreenClientInput ScreenCallback where
  step s
    | .start cfg nowUs => s.start cfg nowUs
    | .onDatagram pkt nowUs => s.onDatagram pkt nowUs
    | .pollFrames nowUs => s.pollFrames nowUs
    | .requestKeyframe => (s.requestKeyframe, [])
    | .planNacks nowUs => s.planNacks nowUs
    | .queueInput ev => ({ s with session := s.session.queueInput ev }, [])
    | .queueClipboard text => ({ s with session := s.session.queueClipboard text }, [])
    | .setFocused on => ({ s with session := s.session.setFocused on }, [])
    | .tick nowUs due => s.tick nowUs due
    | .sendBye => s.withSession s.session.sendBye

end Deskhub
