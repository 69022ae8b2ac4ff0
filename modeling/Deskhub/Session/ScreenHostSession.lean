import Deskhub.Lib.Machine
import Deskhub.Session.ViewerTable

/-!
# The host's end of a screen session

`ScreenHostSession`: admits viewers, hands what they send to the host, and drops those that
leave, stay silent or are sent away. A call makes its callbacks in order; here they are its
outputs. The places of the budget belong to all sessions of the host, so a call takes the
budget and gives it back. What `randomBytes` answers comes with the packet.
-/

namespace Deskhub

def kSessionTimeoutUs : UInt64 := 5000000
def kFeedbackDecisionSpacingUs : UInt64 := 1000000
def kClientWantsAudio : UInt16 := 1

structure StreamParams where
  width : UInt16 := 0
  height : UInt16 := 0
  fps : UInt8 := 60
  bitrateBps : UInt32 := 20000000
deriving DecidableEq, Repr

/-- The callbacks of a session. -/
inductive ScreenHostEvent where
  | send (packet : Bytes)
  | sendTo (addrPacked : UInt64) (packet : Bytes)
  | hello (m : Hello)
  | start
  | keyframeRequest
  | viewerJoin (addrPacked : UInt64) (viewerCount : Nat) (viewerName : Bytes)
  | viewerLeave (addrPacked : UInt64) (viewerCount : Nat)
  | controllerChange (addrPacked : UInt64)
  | disconnect
  | feedback (m : Feedback)
  | input (ev : InputEvent)
  | focus (focused : Bool)
  | nack (frameId : UInt32) (indices : List UInt16)
  | invalidateRef (frameId : UInt32)
  | clipboardText (text : Bytes)
deriving DecidableEq

inductive ScreenHostState where
  | idle | ready | streaming
deriving DecidableEq, Repr

structure ScreenHostSession where
  offer : StreamParams := {}
  viewers : ViewerTable := {}
  state : ScreenHostState := .idle
  sessionId : UInt32 := 0
  inputDenied : Nat := 0
  controllingAddr : UInt64 := 0
  clipboardEnabled : Bool := false
  feedbackPending : Bool := false
  feedbackReported : Bool := false
  lastFeedbackReportUs : UInt64 := 0

/-- A session with the budget it shares, and the callbacks made so far in a call. -/
structure HostCall where
  session : ScreenHostSession
  budget : Option ViewerBudget
  events : List ScreenHostEvent := []

namespace ScreenHostSession

def inSession (s : ScreenHostSession) (sid : UInt32) : Bool := s.sessionId ≠ 0 && sid = s.sessionId

def slot (s : ScreenHostSession) (i : SlotId) : ViewerSlot := s.viewers.slots i

/-- A write through a pointer to a viewer's slot. -/
def setSlot (s : ScreenHostSession) (i : SlotId) (slot : ViewerSlot) : ScreenHostSession :=
  { s with viewers := s.viewers.setSlot i slot }

def refreshState (s : ScreenHostSession) : ScreenHostSession :=
  { s with state := if s.viewers.anyStarted then .streaming else .ready }

def handOverControl (s : ScreenHostSession) (addrPacked : UInt64) :
    ScreenHostSession × List ScreenHostEvent :=
  if s.controllingAddr = addrPacked then (s, [])
  else ({ s with controllingAddr := addrPacked }, [.controllerChange addrPacked])

def sendHelloAck (s : ScreenHostSession) : List ScreenHostEvent :=
  ((buildHelloAck kMaxDatagram
    { sessionId := s.sessionId
      width := s.offer.width
      height := s.offer.height
      fps := s.offer.fps
      bitrateBps := s.offer.bitrateBps }).map ScreenHostEvent.send).toList

/-- `SendReject`: an answer without a session. -/
def sendReject (reason : RejectReason) : List ScreenHostEvent :=
  ((buildHelloAck kMaxDatagram
    { sessionId := 0, width := 0, height := 0, fps := 0, bitrateBps := 0
      rejected := true, reason := reason }).map ScreenHostEvent.send).toList

def disconnect (s : ScreenHostSession) (budget : Option ViewerBudget) : HostCall :=
  let (viewers, budget) := s.viewers.clear budget
  let (s, handed) := handOverControl
    { s with
      state := .idle
      sessionId := 0
      viewers := viewers
      feedbackPending := false
      feedbackReported := false } 0
  { session := s, budget := budget, events := handed ++ [.disconnect] }

def dropViewer (s : ScreenHostSession) (budget : Option ViewerBudget) (i : SlotId) : HostCall :=
  let addr := (s.slot i).addrPacked
  let (viewers, budget) := s.viewers.drop budget i
  let left := [ScreenHostEvent.viewerLeave addr viewers.viewerCount]
  let s := { s with viewers := viewers }
  if viewers.empty then
    let call := s.disconnect budget
    { call with events := left ++ call.events }
  else
    let s := s.refreshState
    let (s, handed) := if s.controllingAddr = addr then s.handOverControl 0 else (s, [])
    { session := s, budget := budget, events := left ++ handed }

/-- `BeginSession`: the session, once it has an id. -/
def beginSession (s : ScreenHostSession) (random : Option UInt32) :
    ScreenHostSession × List ScreenHostEvent × Bool :=
  let sid := random.getD 0
  if sid = 0 then ({ s with state := .idle }, sendReject .none, false)
  else ({ s with sessionId := sid }, [], true)

/-- What a HELLO does to a viewer the session knows. -/
def welcomeBack (s : ScreenHostSession) (i : SlotId) (m : Hello) (nowUs fromPacked : UInt64) :
    ScreenHostSession × List ScreenHostEvent :=
  let viewers := s.viewers.rebind i fromPacked
  let viewers := viewers.setName i m.clientName
  let viewers := viewers.setWantsAudio i (m.features &&& kClientWantsAudio ≠ 0)
  let s := { s with viewers := viewers.setSlot i { viewers.slots i with lastRecvUs := nowUs } }
  (s, s.sendHelloAck)

/-- What a HELLO does for a viewer the session does not know. -/
def welcome (s : ScreenHostSession) (budget : Option ViewerBudget) (m : Hello)
    (nowUs fromPacked : UInt64) (random : Option UInt32) : HostCall × Bool :=
  let firstViewer := s.viewers.empty
  let (s, rejected, begun) := if firstViewer then s.beginSession random else (s, [], true)
  if !begun then ({ session := s, budget := budget, events := rejected }, false)
  else
    match s.viewers.admitViewer budget m.clientId fromPacked nowUs m.clientName with
    | none => ({ session := s, budget := budget, events := sendReject .busy }, false)
    | some (viewers, budget, i) =>
        let viewers := viewers.setWantsAudio i (m.features &&& kClientWantsAudio ≠ 0)
        let s := refreshState { s with viewers := viewers }
        let greeted := if firstViewer then [ScreenHostEvent.hello m] else []
        ({ session := s
           budget := budget
           events := greeted ++ [.viewerJoin fromPacked viewers.viewerCount m.clientName] ++
             s.sendHelloAck }, true)

/-- The viewer at the address of a HELLO, which is dropped when it is another client. -/
def knownAt (s : ScreenHostSession) (budget : Option ViewerBudget) (m : Hello)
    (fromPacked : UInt64) : HostCall × Option SlotId :=
  match s.viewers.find fromPacked with
  | none => ({ session := s, budget := budget }, none)
  | some i =>
      if (s.slot i).clientId ≠ m.clientId then (s.dropViewer budget i, none)
      else ({ session := s, budget := budget }, some i)

def handleHello (s : ScreenHostSession) (budget : Option ViewerBudget) (payload : Bytes)
    (nowUs fromPacked : UInt64) (random : Option UInt32) : HostCall × Bool :=
  match parseHello payload with
  | none => ({ session := s, budget := budget }, false)
  | some m =>
      if fromPacked = 0 then ({ session := s, budget := budget }, false)
      else
        let (call, known) := s.knownAt budget m fromPacked
        match known.or (call.session.viewers.findByClient m.clientId) with
        | some i =>
            let (s, sent) := call.session.welcomeBack i m nowUs fromPacked
            ({ call with session := s, events := call.events ++ sent }, true)
        | none =>
            let (rest, ok) := call.session.welcome call.budget m nowUs fromPacked random
            ({ rest with events := call.events ++ rest.events }, ok)

def reportFeedbackIfDue (s : ScreenHostSession) (nowUs : UInt64) :
    ScreenHostSession × List ScreenHostEvent :=
  if !s.feedbackPending then (s, [])
  else if s.feedbackReported && nowUs - s.lastFeedbackReportUs < kFeedbackDecisionSpacingUs then
    (s, [])
  else
    ({ s with feedbackPending := false, feedbackReported := true, lastFeedbackReportUs := nowUs },
      [.feedback (worstCaseFeedback ((List.finRange _).map s.viewers.slots))])

def applyInput (s : ScreenHostSession) (payload : Bytes) (i : SlotId) (nowUs : UInt64) :
    ScreenHostSession × List ScreenHostEvent :=
  let (input, _, events) := (s.slot i).input.handlePacket payload
  if s.viewers.higherPriorityIsDriving i nowUs then
    -- the packet is counted, but there is no callback for its events
    (({ s with inputDenied := s.inputDenied + 1 } : ScreenHostSession).setSlot i
      { s.slot i with input := input }, [])
  else
    let (s, handed) := (s.setSlot i { s.slot i with lastInputUs := nowUs }).handOverControl
      (s.slot i).addrPacked
    (s.setSlot i { s.slot i with input := input }, handed ++ events.map ScreenHostEvent.input)

def handleStart (s : ScreenHostSession) (i : SlotId) : ScreenHostSession × List ScreenHostEvent :=
  if (s.slot i).started then (s, [])
  else
    let streaming := s.state = .streaming
    let s := s.setSlot i { s.slot i with started := true }
    if streaming then (s, [.keyframeRequest]) else ({ s with state := .streaming }, [.start])

def handleSetFocus (s : ScreenHostSession) (i : SlotId) (focused : Bool) :
    ScreenHostSession × List ScreenHostEvent :=
  if s.controllingAddr ≠ 0 ∧ s.controllingAddr ≠ (s.slot i).addrPacked then (s, [])
  else
    let (s, handed) :=
      if !focused then (s.setSlot i { s.slot i with lastInputUs := 0 }).handOverControl 0
      else (s, [])
    (s, handed ++ [.focus focused])

def handleClipboard (s : ScreenHostSession) (i : SlotId) (chunk : ClipboardChunkView) :
    ScreenHostSession × List ScreenHostEvent :=
  let (clip, complete) := (s.slot i).clip.accept chunk
  if complete then
    let (clip, text) := clip.takeCompleted
    (s.setSlot i { s.slot i with clip := clip }, (text.map ScreenHostEvent.clipboardText).toList)
  else (s.setSlot i { s.slot i with clip := clip }, [])

/-- `HandleFromViewer`: the session, its callbacks, and the answer. -/
def handleFromViewer (s : ScreenHostSession) (type : MsgType) (payload : Bytes) (i : SlotId)
    (nowUs : UInt64) : ScreenHostSession × List ScreenHostEvent × Bool :=
  let streaming := s.state = .streaming
  match type with
  | .start =>
      let (s, out) := s.handleStart i
      (s, out, true)
  | .ping =>
      match parsePingPong payload with
      | none => (s, [], false)
      | some m =>
          (s, ((buildPong kMaxDatagram s.sessionId m).map ScreenHostEvent.send).toList, true)
  | .requestKeyframe => if streaming then (s, [.keyframeRequest], true) else (s, [], false)
  | .inputEvent =>
      if streaming then
        let (s, out) := s.applyInput payload i nowUs
        (s, out, true)
      else (s, [], false)
  | .setFocus =>
      if streaming then
        match parseSetFocus payload with
        | none => (s, [], false)
        | some focused =>
            let (s, out) := s.handleSetFocus i focused
            (s, out, true)
      else (s, [], false)
  | .feedback =>
      match parseFeedback payload with
      | none => (s, [], false)
      | some m =>
          let s := s.setSlot i { s.slot i with feedback := m, haveFeedback := true }
          let (s, out) := reportFeedbackIfDue { s with feedbackPending := true } nowUs
          (s, out, true)
  | .nack =>
      if streaming then
        match parseNack payload kMaxNackIndices with
        | none => (s, [], true)
        | some (frameId, indices) => (s, [.nack frameId indices], true)
      else (s, [], false)
  | .invalidateRef =>
      if streaming then
        (s, ((parseInvalidateRef payload).map ScreenHostEvent.invalidateRef).toList, true)
      else (s, [], false)
  | .clipboard =>
      if streaming && s.clipboardEnabled then
        match parseClipboardChunk payload with
        | none => (s, [], false)
        | some chunk =>
            let (s, out) := s.handleClipboard i chunk
            (s, out, true)
      else (s, [], false)
  | _ => (s, [], false)

def handlePacket (s : ScreenHostSession) (budget : Option ViewerBudget) (pkt : Bytes)
    (nowUs fromPacked : UInt64) (random : Option UInt32) : HostCall × Bool :=
  match parseCommonHeader pkt with
  | none => ({ session := s, budget := budget }, false)
  | some h =>
      let payload := payloadOf pkt
      if h.type = .hello then s.handleHello budget payload nowUs fromPacked random
      else if !s.inSession h.sessionId then ({ session := s, budget := budget }, false)
      else
        match s.viewers.find fromPacked with
        | none => ({ session := s, budget := budget }, false)
        | some i =>
            let s := s.setSlot i { s.slot i with lastRecvUs := nowUs }
            if h.type = .bye then (s.dropViewer budget i, false)
            else
              let (s, out, ok) := s.handleFromViewer h.type payload i nowUs
              ({ session := s, budget := budget, events := out }, ok)

/-- The loop of `Tick` over the slots that are still to be looked at. -/
def dropSilent (nowUs : UInt64) : List SlotId → HostCall → HostCall
  | [], call => call
  | i :: rest, call =>
      let s := call.session
      if !(s.slot i).active || nowUs - (s.slot i).lastRecvUs ≤ kSessionTimeoutUs then
        dropSilent nowUs rest call
      else
        let dropped := s.dropViewer call.budget i
        dropSilent nowUs rest { dropped with events := call.events ++ dropped.events }

def tick (s : ScreenHostSession) (budget : Option ViewerBudget) (nowUs : UInt64) : HostCall :=
  if s.state = .idle then { session := s, budget := budget }
  else
    let call := dropSilent nowUs (List.finRange _) { session := s, budget := budget }
    let (s, out) := call.session.reportFeedbackIfDue nowUs
    { call with session := s, events := call.events ++ out }

def kickViewer (s : ScreenHostSession) (budget : Option ViewerBudget) (addrPacked : UInt64) :
    HostCall × Bool :=
  match s.viewers.find addrPacked with
  | none => ({ session := s, budget := budget }, false)
  | some i =>
      let bye := ((buildEmpty kMaxDatagram .bye s.sessionId).map
        (ScreenHostEvent.sendTo addrPacked)).toList
      let call := s.dropViewer budget i
      ({ call with events := bye ++ call.events }, true)

def setOffer (s : ScreenHostSession) (p : StreamParams) : ScreenHostSession := { s with offer := p }

def setClipboardEnabled (s : ScreenHostSession) (on : Bool) : ScreenHostSession :=
  { s with clipboardEnabled := on }

end ScreenHostSession

/-- The calls of a session. -/
inductive ScreenHostCall where
  | handlePacket (pkt : Bytes) (nowUs fromPacked : UInt64) (random : Option UInt32)
  | tick (nowUs : UInt64)
  | kickViewer (addrPacked : UInt64)
  | setOffer (p : StreamParams)
  | setClipboardEnabled (on : Bool)

namespace ScreenHostSession

def call (s : ScreenHostSession) (budget : Option ViewerBudget) : ScreenHostCall → HostCall
  | .handlePacket pkt nowUs fromPacked random =>
      (s.handlePacket budget pkt nowUs fromPacked random).1
  | .tick nowUs => s.tick budget nowUs
  | .kickViewer addrPacked => (s.kickViewer budget addrPacked).1
  | .setOffer p => { session := s.setOffer p, budget := budget }
  | .setClipboardEnabled on => { session := s.setClipboardEnabled on, budget := budget }

end ScreenHostSession

end Deskhub
