import Deskhub.Protocol.Wire.Input

/-!
# The sender of input events

`InputSender`: events go out in batches behind the last few that went out before,
and the end of the history is repeated a few times when nothing new comes.
-/

namespace Deskhub

def kInputRepeatIntervalUs : UInt64 := 25000
def kInputRepeatCount : UInt32 := 2
def kInputRedundancy : Nat := 8
def kInputBatchMax : Nat := 24
def kHistoryMax : Nat := kInputRedundancy + kInputBatchMax * 2

structure InputSender where
  history : List InputEvent := []
  nextSeq : UInt32 := 0
  firstSeq : UInt32 := 0
  unsent : Nat := 0
  repeatsLeft : UInt32 := 0
  lastSendUs : UInt64 := 0
  sessionId : UInt32 := 0
deriving DecidableEq, Repr

namespace InputSender

/-- The loop at the end of `Queue`: the oldest events go while there are too many and
enough sent ones stay. -/
def trimHistory (unsent : Nat) : UInt32 → List InputEvent → UInt32 × List InputEvent
  | firstSeq, [] => (firstSeq, [])
  | firstSeq, ev :: history =>
    if kHistoryMax < history.length + 1 ∧ kInputRedundancy < history.length + 1 - unsent then
      trimHistory unsent (firstSeq + 1) history
    else (firstSeq, ev :: history)

def queue (s : InputSender) (ev : InputEvent) : InputSender :=
  let firstSeq := if s.history = [] then s.nextSeq else s.firstSeq
  let trimmed := trimHistory (s.unsent + 1) firstSeq (s.history ++ [ev])
  { s with
    history := trimmed.2
    nextSeq := s.nextSeq + 1
    firstSeq := trimmed.1
    unsent := s.unsent + 1 }

/-- `SendRange`: the datagram it sends, if any. -/
def sendRange (s : InputSender) (start stop : Nat) : Option Bytes :=
  if stop ≤ start then none
  else
    buildInputEvents kMaxDatagram s.sessionId (s.firstSeq + UInt32.ofNat start)
      ((s.history.drop start).take (min (stop - start) kMaxInputEvents))

/-- The loop of `Flush`; each turn sends at least one event, so `fuel = unsent` is enough. -/
def flushBatches : Nat → InputSender → InputSender × List Bytes
  | 0, s => (s, [])
  | fuel + 1, s =>
    if s.unsent = 0 then (s, [])
    else
      let newFrom := s.history.length - s.unsent
      let batch := min s.unsent kInputBatchMax
      let start := newFrom - min newFrom kInputRedundancy
      let rest := flushBatches fuel { s with unsent := s.unsent - batch }
      (rest.1, (s.sendRange start (newFrom + batch)).toList ++ rest.2)

/-- `Flush`: the datagrams it sends; `canSend` says that there is a send function. -/
def flush (s : InputSender) (nowUs : UInt64) (canSend : Bool) : InputSender × List Bytes :=
  if s.history = [] ∨ canSend = false then (s, [])
  else if s.unsent = 0 then
    if s.repeatsLeft = 0 ∨ nowUs - s.lastSendUs < kInputRepeatIntervalUs then (s, [])
    else
      let stop := s.history.length
      ({ s with repeatsLeft := s.repeatsLeft - 1, lastSendUs := nowUs },
        (s.sendRange (stop - min stop kInputRedundancy) stop).toList)
  else
    let rest := flushBatches s.unsent s
    ({ rest.1 with repeatsLeft := kInputRepeatCount, lastSendUs := nowUs }, rest.2)

def setSessionId (s : InputSender) (id : UInt32) : InputSender := { s with sessionId := id }

def reset (s : InputSender) : InputSender := { sessionId := s.sessionId }

def pending (s : InputSender) : Bool := 0 < s.unsent

end InputSender

end Deskhub
