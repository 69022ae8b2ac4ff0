import Deskhub.Protocol.Wire.Terminal

/-!
# The terminal client

`TerminalClient`: a tab onto a shell of the host. It opens a new shell or resumes one of the
host's, types into it, follows its size and closes it; the host's messages tell it how that
went. What it sends and what it reports are its events.
-/

namespace Deskhub

inductive TerminalClientState where
  | idle | opening | «open» | reattaching | refused | closed
deriving DecidableEq, Repr

structure TerminalClient where
  state : TerminalClientState := .idle
  termId : UInt32 := 0
  size : TermSize := {}
  sentSize : TermSize := {}
  clientName : Bytes := []
  sessions : TermSessionList := {}
deriving DecidableEq, Repr

inductive TerminalClientEvent where
  | sent (message : Bytes)
  | output (bytes : Bytes)
  | opened (ack : TermOpenAck)
  | refused (reason : TermReason)
  | sessions (list : TermSessionList)
  | exit (exitCode : Int32)
deriving DecidableEq, Repr

/-- The calls of the tab that the client belongs to. -/
inductive TerminalClientCall where
  | «open» (size : TermSize) (clientName : Bytes)
  | reattach
  | resume (termId : UInt32) (size : TermSize)
  | requestList
  | sendInput (bytes : Bytes)
  | resize (size : TermSize)
  | closeSession (termId : UInt32)
  | close
deriving DecidableEq, Repr

namespace TerminalClient

/-- `Emit`: a message that could not be written is not sent. -/
def emit (written : Option Bytes) : List TerminalClientEvent := (written.map .sent).toList

def sendOpen (s : TerminalClient) : TerminalClient × List TerminalClientEvent :=
  ({ s with sentSize := s.size },
    emit (buildTermOpen kMaxRecordSize
      { size := s.size, resumeId := s.termId, clientName := s.clientName }))

def «open» (s : TerminalClient) (size : TermSize) (clientName : Bytes) :
    TerminalClient × List TerminalClientEvent :=
  sendOpen
    { s with clientName := clientName, size := clampTermSize size, termId := 0, state := .opening }

def resume (s : TerminalClient) (termId : UInt32) (size : TermSize) :
    TerminalClient × List TerminalClientEvent :=
  if termId = 0 ∨ s.state = .closed then (s, [])
  else if s.state = .open then (s, [])
  else sendOpen { s with size := clampTermSize size, termId := termId, state := .reattaching }

def reattach (s : TerminalClient) : TerminalClient × List TerminalClientEvent :=
  s.resume s.termId s.size

def requestList (s : TerminalClient) : List TerminalClientEvent :=
  if s.state = .closed then [] else emit (buildTermList kMaxRecordSize)

/-- The loop of `SendInput`. -/
def inputMessages (termId : UInt32) (bytes : Bytes) : List TerminalClientEvent :=
  if bytes = [] then []
  else
    let chunk := if bytes.length < kMaxTermDataBytes then bytes.length else kMaxTermDataBytes
    emit (buildTermData kMaxRecordSize termId (bytes.take chunk)) ++
      inputMessages termId (bytes.drop chunk)
termination_by bytes.length
decreasing_by
  have hmax : kMaxTermDataBytes = 4096 := rfl
  have hpos := List.length_pos_iff.mpr ‹bytes ≠ []›
  simp only [List.length_drop]
  split <;> omega

def sendInput (s : TerminalClient) (bytes : Bytes) : List TerminalClientEvent :=
  if s.state ≠ .open then [] else inputMessages s.termId bytes

def resize (s : TerminalClient) (size : TermSize) : TerminalClient × List TerminalClientEvent :=
  let clamped := clampTermSize size
  if clamped = s.size then (s, [])
  else
    let s := { s with size := clamped }
    if s.state ≠ .open then (s, [])
    else (s, emit (buildTermResize kMaxRecordSize s.termId s.size))

def closeSession (s : TerminalClient) (termId : UInt32) :
    TerminalClient × List TerminalClientEvent :=
  if termId = 0 ∨ s.state = .closed then (s, [])
  else
    let out := emit (buildTermClose kMaxRecordSize termId)
    if termId ≠ s.termId then (s, out)
    else ({ s with termId := 0, state := .closed }, out)

def close (s : TerminalClient) : TerminalClient × List TerminalClientEvent :=
  let out := if s.state = .open then emit (buildTermClose kMaxRecordSize s.termId) else []
  ({ s with termId := 0, state := .closed }, out)

def linkLost (s : TerminalClient) : TerminalClient :=
  if s.state = .closed then s else { s with state := .idle }

/-- The answer to an open is awaited. -/
def isWaiting (s : TerminalClient) : Bool := s.state = .opening || s.state = .reattaching

def handleOpenAck (s : TerminalClient) (ack : TermOpenAck) :
    TerminalClient × List TerminalClientEvent :=
  let hostSharesNoTerminal := ack.reason = .notShared && s.state = .idle
  if !s.isWaiting && !hostSharesNoTerminal then (s, [])
  else if ack.reason ≠ .accepted ∨ ack.termId = 0 then
    let hostMayNotHaveNoticedTheDropYet :=
      s.state = .reattaching && ack.reason = .noSuchSession
    let s :=
      if hostMayNotHaveNoticedTheDropYet then { s with state := .idle }
      else { s with termId := 0, state := .refused }
    (s, [.refused ack.reason])
  else
    let s := { s with termId := ack.termId, state := .open }
    let resized :=
      if s.size ≠ s.sentSize then emit (buildTermResize kMaxRecordSize s.termId s.size) else []
    (s, resized ++ [.opened ack])

def handleMessage (s : TerminalClient) (message : Bytes) :
    TerminalClient × List TerminalClientEvent :=
  match readTermMessage message with
  | some (.openAck ack) => s.handleOpenAck ack
  | some (.listAck list) =>
      if s.state = .closed then (s, []) else ({ s with sessions := list }, [.sessions list])
  | some (.data termId payload) =>
      if s.state ≠ .open then (s, [])
      else if termId ≠ s.termId then (s, [])
      else if payload = [] ∨ kMaxTermDataBytes < payload.length then (s, [])
      else (s, [.output payload])
  | some (.exit termId exitCode) =>
      if termId ≠ s.termId then (s, [])
      else ({ s with termId := 0, state := .closed }, [.exit exitCode])
  | some (.close termId) =>
      if termId ≠ s.termId then (s, [])
      else ({ s with termId := 0, state := .closed }, [.exit 0])
  | _ => (s, [])

def call (s : TerminalClient) : TerminalClientCall → TerminalClient × List TerminalClientEvent
  | .open size clientName => s.open size clientName
  | .reattach => s.reattach
  | .resume termId size => s.resume termId size
  | .requestList => (s, s.requestList)
  | .sendInput bytes => (s, s.sendInput bytes)
  | .resize size => s.resize size
  | .closeSession termId => s.closeSession termId
  | .close => s.close

/-! ## What the calls and the messages change -/

/-- No call makes a terminal: one that is open behind a call was open before it. -/
theorem call_open {s : TerminalClient} {c : TerminalClientCall}
    (h : (s.call c).1.state = .open) : s.state = .open ∧ (s.call c).1.termId = s.termId := by
  cases c with
  | «open» size clientName => cases h
  | reattach =>
    change (s.resume s.termId s.size).1.state = .open at h
    change _ ∧ (s.resume s.termId s.size).1.termId = _
    unfold resume at h ⊢
    split at h
    · exact ⟨h, by rw [if_pos ‹_›]⟩
    · split at h
      · exact ⟨h, by rw [if_neg ‹_›, if_pos ‹_›]⟩
      · cases h
  | resume termId size =>
    change (s.resume termId size).1.state = .open at h
    change _ ∧ (s.resume termId size).1.termId = _
    unfold resume at h ⊢
    split at h
    · exact ⟨h, by rw [if_pos ‹_›]⟩
    · split at h
      · exact ⟨h, by rw [if_neg ‹_›, if_pos ‹_›]⟩
      · cases h
  | requestList => exact ⟨h, rfl⟩
  | sendInput bytes => exact ⟨h, rfl⟩
  | resize size =>
    change (s.resize size).1.state = .open at h
    change _ ∧ (s.resize size).1.termId = _
    unfold resize at h ⊢
    dsimp only at h ⊢
    split at h
    · exact ⟨h, by rw [if_pos ‹_›]⟩
    · split at h
      · exact ⟨h, by rw [if_neg ‹_›, if_pos ‹_›]⟩
      · exact ⟨h, by rw [if_neg ‹_›, if_neg ‹_›]⟩
  | closeSession termId =>
    change (s.closeSession termId).1.state = .open at h
    change _ ∧ (s.closeSession termId).1.termId = _
    unfold closeSession at h ⊢
    dsimp only at h ⊢
    split at h
    · exact ⟨h, by rw [if_pos ‹_›]⟩
    · split at h
      · exact ⟨h, by rw [if_neg ‹_›, if_pos ‹_›]⟩
      · cases h
  | close => cases h

/-- How the answer to an open is taken: not at all, or as a refusal, or as a terminal. -/
theorem handleOpenAck_cases (s : TerminalClient) (ack : TermOpenAck) :
    (s.isWaiting = false ∧ s.handleOpenAck ack = (s, [])) ∨
      ((ack.reason ≠ .accepted ∨ ack.termId = 0) ∧ s.state ≠ .open ∧
        (s.handleOpenAck ack).1.state ≠ .open ∧
        (s.handleOpenAck ack).1.isWaiting = false ∧
        (s.handleOpenAck ack).2 = [.refused ack.reason]) ∨
      (s.isWaiting = true ∧ ack.reason = .accepted ∧ ack.termId ≠ 0 ∧
        s.handleOpenAck ack = ({ s with termId := ack.termId, state := .open },
          (if s.size ≠ s.sentSize then emit (buildTermResize kMaxRecordSize ack.termId s.size)
            else []) ++ [.opened ack])) := by
  unfold handleOpenAck
  dsimp only
  by_cases hwaits : s.isWaiting = true
  · have hopen : s.state ≠ .open := by
      intro h
      simp [isWaiting, h] at hwaits
    rw [if_neg (by simp [hwaits])]
    by_cases hrefused : ack.reason ≠ .accepted ∨ ack.termId = 0
    · rw [if_pos hrefused]
      right
      left
      refine ⟨hrefused, hopen, ?_, ?_, rfl⟩
      · split <;> simp
      · split <;> simp [isWaiting]
    · rw [if_neg hrefused]
      right
      right
      rw [not_or, not_not] at hrefused
      exact ⟨hwaits, hrefused.1, hrefused.2, rfl⟩
  · by_cases hshares : ack.reason = .notShared ∧ s.state = .idle
    · rcases hshares with ⟨hreason, hidle⟩
      have hrefused : ack.reason ≠ .accepted := by rw [hreason]; nofun
      rw [if_neg (by simp [hreason, hidle]), if_pos (.inl hrefused)]
      right
      left
      refine ⟨.inl hrefused, by simp [hidle], ?_, ?_, rfl⟩
      · split <;> simp
      · split <;> simp [isWaiting]
    · have hsilent := not_and_or.mp hshares
      rw [if_pos (by simpa [hwaits] using hsilent)]
      left
      exact ⟨by simpa using hwaits, rfl⟩

theorem handleMessage_ack {s : TerminalClient} {message : Bytes} {ack : TermOpenAck}
    (h : readTermMessage message = some (.openAck ack)) :
    s.handleMessage message = s.handleOpenAck ack := by
  unfold handleMessage
  rw [h]

/-- Any other message leaves the terminal as it is, or ends it, and is not answered. -/
theorem handleMessage_other {s : TerminalClient} {message : Bytes}
    (h : ∀ ack, readTermMessage message ≠ some (.openAck ack)) :
    (s.handleMessage message).1.size = s.size ∧
      (s.handleMessage message).1.sentSize = s.sentSize ∧
      (∀ m, .sent m ∉ (s.handleMessage message).2) ∧
      ((s.handleMessage message).1.state = s.state ∧ (s.handleMessage message).1.termId = s.termId ∨
        (s.handleMessage message).1.state = .closed) := by
  unfold handleMessage
  split
  · next ack hread => exact absurd hread (h ack)
  · split
    · exact ⟨rfl, rfl, nofun, .inl ⟨rfl, rfl⟩⟩
    · exact ⟨rfl, rfl, by simp, .inl ⟨rfl, rfl⟩⟩
  · split
    · exact ⟨rfl, rfl, nofun, .inl ⟨rfl, rfl⟩⟩
    · split
      · exact ⟨rfl, rfl, nofun, .inl ⟨rfl, rfl⟩⟩
      · split
        · exact ⟨rfl, rfl, nofun, .inl ⟨rfl, rfl⟩⟩
        · exact ⟨rfl, rfl, by simp, .inl ⟨rfl, rfl⟩⟩
  · split
    · exact ⟨rfl, rfl, nofun, .inl ⟨rfl, rfl⟩⟩
    · exact ⟨rfl, rfl, by simp, .inr rfl⟩
  · split
    · exact ⟨rfl, rfl, nofun, .inl ⟨rfl, rfl⟩⟩
    · exact ⟨rfl, rfl, by simp, .inr rfl⟩
  · exact ⟨rfl, rfl, nofun, .inl ⟨rfl, rfl⟩⟩

/-- The end of a terminal comes only as a message that says so. -/
theorem handleMessage_state {s : TerminalClient} {message : Bytes}
    (hack : ∀ ack, readTermMessage message ≠ some (.openAck ack))
    (hexit : ∀ termId exitCode, readTermMessage message ≠ some (.exit termId exitCode))
    (hclose : ∀ termId, readTermMessage message ≠ some (.close termId)) :
    (s.handleMessage message).1.state = s.state ∧ (s.handleMessage message).1.termId = s.termId := by
  unfold handleMessage
  split
  · next ack hread => exact absurd hread (hack ack)
  · split
    · exact ⟨rfl, rfl⟩
    · exact ⟨rfl, rfl⟩
  · split
    · exact ⟨rfl, rfl⟩
    · split
      · exact ⟨rfl, rfl⟩
      · split
        · exact ⟨rfl, rfl⟩
        · exact ⟨rfl, rfl⟩
  · next termId exitCode hread => exact absurd hread (hexit termId exitCode)
  · next termId hread => exact absurd hread (hclose termId)
  · exact ⟨rfl, rfl⟩

end TerminalClient

end Deskhub
