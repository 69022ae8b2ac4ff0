import Deskhub.Input.InputLink
import Deskhub.Session.ScreenClientSession
import Deskhub.Session.ScreenHostState

/-!
# A viewer and its host over a network

A `ScreenClientSession` and a `ScreenHostSession`, and the datagrams each of them has sent. The
network delivers any of these at any time, as often as it likes, from whatever address the viewer
has then, or never. The viewer may be started again, always with the same client id; other viewers
come and go, each from addresses of its own.
-/

namespace Deskhub

structure ScreenLink where
  client : ScreenClientSession := {}
  host : ViewerHost
  /-- The events that `QueueInput` took, in their order. -/
  queued : List InputEvent := []
  /-- The datagrams of the viewer. -/
  sent : List Bytes := []
  /-- The datagrams of the host. -/
  answered : List Bytes := []

inductive ScreenLinkCall where
  | start (hello : Hello) (nowUs : UInt64)
  | client (call : ScreenClientCall)
  /-- The host's `n`th datagram reaches the viewer. -/
  | answer (n : Nat) (nowUs : UInt64)
  /-- The viewer's `n`th datagram reaches the host. -/
  | deliver (n : Nat) (nowUs fromPacked : UInt64) (random : Option UInt32)
  | host (e : ViewerHostEvent)

namespace ScreenLink

def init (shared : Bool) : ScreenLink := { host := .init shared }

/-- What goes out on the viewer's side. -/
def packetsOf (out : List ScreenClientEvent) : List Bytes :=
  out.filterMap fun
    | .send packet => some packet
    | _ => none

/-- What goes out on the host's side. -/
def repliesOf (out : List ScreenHostEvent) : List Bytes :=
  out.filterMap fun
    | .send packet => some packet
    | .sendTo _ packet => some packet
    | _ => none

/-- What `onInput` is called with. -/
def inputsOf (out : List ScreenHostEvent) : List InputEvent :=
  out.filterMap fun
    | .input ev => some ev
    | _ => none

/-- The event that a call of `QueueInput` adds. -/
def queuedBy (client : ScreenClientSession) : ScreenClientCall → List InputEvent
  | .queueInput ev => if client.state = .streaming then [ev] else []
  | _ => []

def clientStep (w : ScreenLink) (call : ScreenClientCall) : ScreenLink :=
  let (client, out) := screenClientSession.step w.client call
  { w with client := client, queued := w.queued ++ queuedBy w.client call, sent := w.sent ++ packetsOf out }

def hostStep (w : ScreenLink) (e : ViewerHostEvent) : ScreenLink × List ScreenHostEvent :=
  let (host, out) := viewerHost.step w.host e
  ({ w with host := host, answered := w.answered ++ repliesOf out }, out)

/-- The client whose slot a packet is a message for. -/
def ownerOf (w : ScreenLink) : ViewerHostEvent → Option UInt32
  | .call call => (w.host.session.messageOf call).map fun msg => (w.host.session.slot msg.slot).clientId
  | _ => none

/-- The events of a datagram with their numbers: those that come out are the last of it. -/
def numbered (packet : Bytes) (inputs : List InputEvent) : List (InputEvent × Nat) :=
  inputs.zipIdx (endEvent packet - inputs.length)

/-- A datagram of the viewer arrives. -/
def deliverStep (clientId : UInt32) (w : ScreenLink) (packet : Bytes) (nowUs fromPacked : UInt64)
    (random : Option UInt32) : ScreenLink × List (InputEvent × Nat) :=
  let e := ViewerHostEvent.call (.handlePacket packet nowUs fromPacked random)
  -- no other viewer has this address
  if ∃ owner ∈ w.ownerOf e, owner ≠ clientId then (w, [])
  else
    let (w, out) := w.hostStep e
    (w, numbered packet (inputsOf out))

end ScreenLink

open ScreenLink in
/-- Both parties and the network; the outputs are the viewer's events that `onInput` is called
with, and their numbers among those queued. -/
def screenLink (clientId : UInt32) : Machine ScreenLink ScreenLinkCall (InputEvent × Nat) where
  step w
    | .start hello nowUs =>
        let (client, out) := w.client.start { hello with clientId := clientId } nowUs
        ({ w with client := client, sent := w.sent ++ packetsOf out }, [])
    -- packets reach the viewer by the network
    | .client (.handlePacket _ _) => (w, [])
    | .client call => (w.clientStep call, [])
    | .answer n nowUs =>
        match w.answered[n]? with
        | none => (w, [])
        | some packet => (w.clientStep (.handlePacket packet nowUs), [])
    | .deliver n nowUs fromPacked random =>
        match w.sent[n]? with
        | none => (w, [])
        | some packet => w.deliverStep clientId packet nowUs fromPacked random
    -- nor does the viewer have the address of another
    | .host e => if w.ownerOf e = some clientId then (w, []) else ((w.hostStep e).1, [])

namespace ScreenLink

/-! ## The viewer's side -/

/-- The datagram is a message of input events. -/
def IsInput (packet : Bytes) : Prop := ∃ h, parseCommonHeader packet = some h ∧ h.type = .inputEvent

theorem not_isInput_writeCommon {cap : Nat} {type : MsgType} {flags : UInt8} {chan : Chan} {sessionId : UInt32}
    {payload packet : Bytes} (htype : type ∈ MsgType.declared) (hchan : ∀ b, chan ≠ .other b)
    (hne : type ≠ .inputEvent) (h : writeCommon cap type flags chan sessionId payload = some packet) :
    ¬IsInput packet := by
  rintro ⟨header, hheader, hinput⟩
  rw [parseCommonHeader_writeCommon htype hchan h] at hheader
  rw [← Option.some.inj hheader] at hinput
  exact hne hinput

/-- Whatever the calls send but the events that are queued, it is no input. -/
def Mute (out : List ScreenClientEvent) : Prop := ∀ packet ∈ packetsOf out, ¬IsInput packet

theorem mute_append {out out' : List ScreenClientEvent} (h : Mute out) (h' : Mute out') : Mute (out ++ out') := by
  intro packet hpacket
  unfold packetsOf at hpacket
  rw [List.filterMap_append] at hpacket
  rcases List.mem_append.mp hpacket with hfirst | hsecond
  · exact h packet hfirst
  · exact h' packet hsecond

theorem packetsOf_sent (packet : Option Bytes) : packetsOf (ScreenClientSession.sent packet) = packet.toList := by
  cases packet with
  | none => rfl
  | some bytes => rfl

theorem mute_sent {packet : Option Bytes} (h : ∀ bytes, packet = some bytes → ¬IsInput bytes) :
    Mute (ScreenClientSession.sent packet) := by
  intro bytes hbytes
  rw [packetsOf_sent] at hbytes
  exact h bytes (Option.mem_toList.mp hbytes)

/-- What a call does to the sender of input events: it makes these calls of it, and what it sends
besides is no input. -/
def Drives (s s' : ScreenClientSession) (out : List ScreenClientEvent) (events : List InputEvent) : Prop :=
  ∃ calls : List InputSender.Call, s'.input = (InputSender.machine.run s.input calls).1 ∧
    InputSender.queued calls = events ∧
    ∀ packet ∈ packetsOf out, IsInput packet → packet ∈ (InputSender.machine.run s.input calls).2

theorem drives_of_mute {s s' : ScreenClientSession} {out : List ScreenClientEvent} (h : s'.input = s.input)
    (hmute : Mute out) : Drives s s' out [] := by
  refine ⟨[], h, rfl, ?_⟩
  intro packet hpacket hinput
  exact absurd hinput (hmute packet hpacket)

theorem mute_nil : Mute [] := by
  intro packet hpacket
  contradiction

theorem mute_sendHello (s : ScreenClientSession) : Mute s.sendHello :=
  mute_sent fun _ h => not_isInput_writeCommon (by decide) (by simp) (by decide) h

theorem mute_buildEmpty {type : MsgType} (htype : type ∈ MsgType.declared) (hne : type ≠ .inputEvent)
    (sessionId : UInt32) : Mute (ScreenClientSession.sent (buildEmpty kMaxDatagram type sessionId)) :=
  mute_sent fun _ h => not_isInput_writeCommon htype (by simp) hne h

theorem mute_sendStart (s : ScreenClientSession) : Mute s.sendStart := mute_buildEmpty (by decide) (by decide) _

/-- No packet leads to input. -/
theorem handlePacket_mute (s : ScreenClientSession) (pkt : Bytes) (nowUs : UInt64) :
    (s.handlePacket pkt nowUs).1.input = s.input ∧ Mute (s.handlePacket pkt nowUs).2.1 := by
  have hsilent : ∀ {event : ScreenClientEvent}, packetsOf [event] = [] → Mute [event] := by
    intro event hnone packet hpacket
    rw [hnone] at hpacket
    contradiction
  unfold ScreenClientSession.handlePacket
  split
  · exact ⟨rfl, mute_nil⟩
  · dsimp only
    split
    · split
      · exact ⟨rfl, mute_nil⟩
      · unfold ScreenClientSession.handleHelloAck
        split
        · exact ⟨rfl, mute_nil⟩
        · split
          · exact ⟨rfl, hsilent rfl⟩
          · exact ⟨rfl, mute_append (hsilent rfl) (mute_sendStart _)⟩
    · unfold ScreenClientSession.handlePong
      split
      · exact ⟨rfl, mute_nil⟩
      · split
        · exact ⟨rfl, mute_nil⟩
        · split
          · exact ⟨rfl, mute_nil⟩
          · exact ⟨rfl, hsilent rfl⟩
    · split
      · exact ⟨rfl, mute_nil⟩
      · unfold ScreenClientSession.handleReconfig
        split
        · exact ⟨rfl, mute_nil⟩
        · split
          · exact ⟨rfl, mute_nil⟩
          · refine ⟨rfl, ?_⟩
            dsimp only
            split
            · exact mute_nil
            · exact hsilent rfl
    · split
      · exact ⟨rfl, mute_nil⟩
      · exact ⟨rfl, hsilent rfl⟩
    · split
      · exact ⟨rfl, mute_nil⟩
      · unfold ScreenClientSession.handleClipboard
        split
        · exact ⟨rfl, mute_nil⟩
        · split
          · exact ⟨rfl, mute_nil⟩
          · dsimp only
            split
            · refine ⟨rfl, ?_⟩
              dsimp only
              cases (ClipboardSync.takeCompleted _).2 with
              | none => exact mute_nil
              | some text => exact hsilent rfl
            · exact ⟨rfl, mute_nil⟩
    · exact ⟨rfl, mute_nil⟩

/-! ### Ticks -/

theorem Drives.trans {s s' s'' : ScreenClientSession} {out out' : List ScreenClientEvent}
    {events events' : List InputEvent} (h : Drives s s' out events) (h' : Drives s' s'' out' events') :
    Drives s s'' (out ++ out') (events ++ events') := by
  obtain ⟨calls, hinput, hqueued, hsent⟩ := h
  obtain ⟨calls', hinput', hqueued', hsent'⟩ := h'
  have hrun := InputSender.machine.run_append s.input calls calls'
  rw [← hinput] at hrun
  refine ⟨calls ++ calls', ?_, ?_, ?_⟩
  · rw [hrun]
    exact hinput'
  · unfold InputSender.queued
    rw [List.filterMap_append]
    exact congrArg₂ (· ++ ·) hqueued hqueued'
  · intro packet hpacket hmessage
    unfold packetsOf at hpacket
    rw [List.filterMap_append] at hpacket
    rw [hrun]
    rcases List.mem_append.mp hpacket with hfirst | hsecond
    · exact List.mem_append_left _ (hsent packet hfirst hmessage)
    · exact List.mem_append_right _ (hsent' packet hsecond hmessage)

theorem tickPing_mute (s : ScreenClientSession) (nowUs : UInt64) : Drives s (s.tickPing nowUs).1 (s.tickPing nowUs).2 [] := by
  have hping : Mute (ScreenClientSession.sent (buildPing kMaxDatagram s.sessionId
      { pingId := s.nextPingId, sendTimeUs := nowUs })) := by
    apply mute_sent
    intro packet hpacket
    unfold buildPing buildPingPong at hpacket
    exact not_isInput_writeCommon (by decide) (by simp) (by decide) hpacket
  unfold ScreenClientSession.tickPing
  split
  · exact drives_of_mute rfl mute_nil
  · exact drives_of_mute rfl hping

theorem tickFocus_mute (s : ScreenClientSession) (nowUs : UInt64) :
    Drives s (s.tickFocus nowUs).1 (s.tickFocus nowUs).2 [] := by
  have hfocus : Mute (ScreenClientSession.sent (buildSetFocus kMaxDatagram s.sessionId s.focusWanted)) :=
    mute_sent fun _ h => not_isInput_writeCommon (by decide) (by simp) (by decide) h
  unfold ScreenClientSession.tickFocus
  split
  · exact drives_of_mute rfl hfocus
  · exact drives_of_mute rfl mute_nil

theorem tickKeyframe_mute (s : ScreenClientSession) (nowUs : UInt64) :
    Drives s (s.tickKeyframe nowUs).1 (s.tickKeyframe nowUs).2 [] := by
  unfold ScreenClientSession.tickKeyframe
  split
  · exact drives_of_mute rfl (mute_buildEmpty (by decide) (by decide) _)
  · exact drives_of_mute rfl mute_nil

theorem packetsOf_map_send (packets : List Bytes) : packetsOf (packets.map ScreenClientEvent.send) = packets := by
  induction packets with
  | nil => rfl
  | cons packet packets ih => exact congrArg (packet :: ·) ih

/-- The chunks of a clipboard are no input. -/
theorem sendChunks_mute (s : ClipboardSync) (chunkCount : Nat) (places : List Nat) :
    ∀ packet ∈ s.sendChunks chunkCount places, ¬IsInput packet := by
  induction places with
  | nil =>
    intro packet hpacket
    contradiction
  | cons i rest ih =>
    intro packet hpacket
    rw [ClipboardSync.sendChunks] at hpacket
    split at hpacket
    · contradiction
    · next d hbuilt =>
      rcases List.mem_cons.mp hpacket with rfl | hrest
      · unfold buildClipboardChunk at hbuilt
        split at hbuilt
        · contradiction
        · split at hbuilt
          · contradiction
          · split at hbuilt
            · contradiction
            · exact not_isInput_writeCommon (by decide) (by simp) (by decide) hbuilt
      · exact ih packet hrest

theorem flush_mute (s : ClipboardSync) (nowUs : UInt64) (canSend : Bool) :
    ∀ packet ∈ (s.flush nowUs canSend).2, ¬IsInput packet := by
  unfold ClipboardSync.flush
  split
  · intro packet hpacket
    contradiction
  · split
    · intro packet hpacket
      contradiction
    · exact sendChunks_mute s _ _

theorem tickFlush_drives (s : ScreenClientSession) (nowUs : UInt64) :
    Drives s (s.tickFlush nowUs).1 (s.tickFlush nowUs).2 [] := by
  unfold ScreenClientSession.tickFlush
  split
  · refine ⟨[.flush nowUs true], rfl, rfl, ?_⟩
    intro packet hpacket hinput
    dsimp only at hpacket
    unfold packetsOf at hpacket
    rw [List.filterMap_append] at hpacket
    rcases List.mem_append.mp hpacket with hevents | hchunks
    · have hsent : packet ∈ packetsOf ((s.input.flush nowUs true).2.map ScreenClientEvent.send) := hevents
      rw [packetsOf_map_send] at hsent
      exact List.mem_append_left _ hsent
    · have hsent : packet ∈ packetsOf ((s.clip.flush nowUs true).2.map ScreenClientEvent.send) := hchunks
      rw [packetsOf_map_send] at hsent
      exact absurd hinput (flush_mute s.clip nowUs true packet hsent)
  · exact drives_of_mute rfl mute_nil

theorem die_drives (s : ScreenClientSession) (reason : String) (cause : ScreenSessionEnd) :
    Drives s (s.die reason cause).1 (s.die reason cause).2 [] := by
  apply drives_of_mute rfl
  intro packet hpacket
  contradiction

theorem tickRunning_drives (s : ScreenClientSession) (nowUs : UInt64) :
    Drives s (s.tickRunning nowUs).1 (s.tickRunning nowUs).2 [] := by
  unfold ScreenClientSession.tickRunning
  split
  · exact die_drives s _ _
  · exact (((tickPing_mute s nowUs).trans (tickFocus_mute _ nowUs)).trans (tickFlush_drives _ nowUs)).trans
      (tickKeyframe_mute _ nowUs)

theorem tick_drives (s : ScreenClientSession) (nowUs : UInt64) : Drives s (s.tick nowUs).1 (s.tick nowUs).2 [] := by
  unfold ScreenClientSession.tick
  split
  · exact drives_of_mute rfl mute_nil
  · exact drives_of_mute rfl mute_nil
  · split
    · exact die_drives s _ _
    · split
      · exact drives_of_mute rfl (mute_sendHello s)
      · exact drives_of_mute rfl mute_nil
  · dsimp only
    split
    · have hasked : Drives s { s with lastSentUs := nowUs } s.sendStart [] := drives_of_mute rfl (mute_sendStart s)
      exact hasked.trans (tickRunning_drives _ nowUs)
    · have hquiet : Drives s s [] [] := drives_of_mute rfl mute_nil
      exact hquiet.trans (tickRunning_drives s nowUs)
  · exact tickRunning_drives s nowUs

/-- Only `QueueInput` queues, and only what the sender sends is input. -/
theorem step_drives (s : ScreenClientSession) (call : ScreenClientCall) :
    Drives s (screenClientSession.step s call).1 (screenClientSession.step s call).2 (queuedBy s call) := by
  cases call with
  | handlePacket pkt nowUs => exact drives_of_mute (handlePacket_mute s pkt nowUs).1 (handlePacket_mute s pkt nowUs).2
  | notifyVideoPacket nowUs =>
    show Drives s (s.notifyVideoPacket nowUs) [] []
    apply drives_of_mute _ mute_nil
    unfold ScreenClientSession.notifyVideoPacket
    dsimp only
    split <;> split <;> rfl
  | tick nowUs => exact tick_drives s nowUs
  | queueInput ev =>
    show Drives s (s.queueInput ev) [] (if s.state = .streaming then [ev] else [])
    unfold ScreenClientSession.queueInput
    by_cases hstreaming : s.state = .streaming
    · rw [if_pos hstreaming, if_neg (not_not.mpr hstreaming)]
      refine ⟨[.setSessionId s.sessionId, .queue ev], rfl, rfl, ?_⟩
      intro packet hpacket
      contradiction
    · rw [if_neg hstreaming, if_pos hstreaming]
      exact drives_of_mute rfl mute_nil
  | queueClipboard text =>
    show Drives s (s.queueClipboard text) [] []
    apply drives_of_mute _ mute_nil
    unfold ScreenClientSession.queueClipboard
    split <;> rfl
  | setFocused on =>
    show Drives s (s.setFocused on) [] []
    apply drives_of_mute _ mute_nil
    unfold ScreenClientSession.setFocused
    split <;> rfl
  | requestKeyframe => exact drives_of_mute rfl mute_nil
  | cancelKeyframeRequest => exact drives_of_mute rfl mute_nil
  | sendFeedback fb =>
    show Drives s s (s.sendFeedback fb) []
    apply drives_of_mute rfl
    unfold ScreenClientSession.sendFeedback
    split
    · exact mute_nil
    · exact mute_sent fun _ h => not_isInput_writeCommon (by decide) (by simp) (by decide) h
  | sendNack frameId indices =>
    show Drives s s (s.sendNack frameId indices) []
    apply drives_of_mute rfl
    unfold ScreenClientSession.sendNack
    split
    · exact mute_nil
    · apply mute_sent
      intro bytes hbytes
      unfold buildNack at hbytes
      split at hbytes
      · contradiction
      · exact not_isInput_writeCommon (by decide) (by simp) (by decide) hbytes
  | sendInvalidateRef frameId =>
    show Drives s s (s.sendInvalidateRef frameId) []
    apply drives_of_mute rfl
    unfold ScreenClientSession.sendInvalidateRef
    split
    · exact mute_nil
    · exact mute_sent fun _ h => not_isInput_writeCommon (by decide) (by simp) (by decide) h
  | sendBye =>
    show Drives s s.sendBye.1 s.sendBye.2 []
    apply drives_of_mute rfl
    unfold ScreenClientSession.sendBye
    dsimp only
    split
    · exact mute_buildEmpty (by decide) (by decide) _
    · exact mute_nil

end ScreenLink

end Deskhub
