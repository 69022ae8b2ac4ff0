import Deskhub.Protocol.Wire.Texts

/-!
# Terminal messages

The builders and parsers of the terminal channel, with what each parser gives on what its
builder wrote.
-/

namespace Deskhub

def kMaxTermDataBytes : Nat := 4096
def kTermListEntryFixedBytes : Nat := 10
def kMaxTermListEntries : Nat := 16

def kMinTermCols : Nat := 1
def kMinTermRows : Nat := 1
def kMaxTermCols : Nat := 1000
def kMaxTermRows : Nat := 1000

structure TermSize where
  cols : Nat := 80
  rows : Nat := 24
deriving DecidableEq, Repr

def clampTermSize (size : TermSize) : TermSize :=
  { cols := min (max size.cols kMinTermCols) kMaxTermCols
    rows := min (max size.rows kMinTermRows) kMaxTermRows }

def isValidTermSize (size : TermSize) : Bool :=
  kMinTermCols ≤ size.cols ∧ size.cols ≤ kMaxTermCols ∧
    kMinTermRows ≤ size.rows ∧ size.rows ≤ kMaxTermRows

inductive TermReason where
  | accepted | tooManySessions | notShared | noSuchSession
deriving DecidableEq, Repr

def TermReason.all : List TermReason := [.accepted, .tooManySessions, .notShared, .noSuchSession]

def TermReason.code : TermReason → UInt8
  | .accepted => 0
  | .tooManySessions => 1
  | .notShared => 2
  | .noSuchSession => 3

/-- The reason of a byte; none above `NoSuchSession`. -/
def TermReason.ofCode? (c : UInt8) : Option TermReason := TermReason.all.find? (fun r => r.code = c)

@[simp] theorem TermReason.ofCode?_code (r : TermReason) : TermReason.ofCode? r.code = some r := by
  cases r <;> decide

inductive TerminalState where
  | live | detached | «local»
deriving DecidableEq, Repr

def TerminalState.all : List TerminalState := [.live, .detached, .local]

def TerminalState.code : TerminalState → UInt8
  | .live => 0
  | .detached => 1
  | .local => 2

/-- The state of a byte; none above `Local`. -/
def TerminalState.ofCode? (c : UInt8) : Option TerminalState :=
  TerminalState.all.find? (fun s => s.code = c)

@[simp] theorem TerminalState.ofCode?_code (s : TerminalState) :
    TerminalState.ofCode? s.code = some s := by
  cases s <;> decide

structure TermOpen where
  size : TermSize := {}
  resumeId : UInt32 := 0
  clientName : Bytes := []
deriving DecidableEq, Repr

structure TermOpenAck where
  termId : UInt32 := 0
  reason : TermReason := .accepted
  resumed : Bool := false
deriving DecidableEq, Repr

structure TermSessionEntry where
  termId : UInt32 := 0
  state : TerminalState := .live
  size : TermSize := {}
  clientName : Bytes := []
deriving DecidableEq, Repr

structure TermSessionList where
  sessions : List TermSessionEntry := []
deriving DecidableEq, Repr

/-! ## Builders -/

def buildTermData (cap : Nat) (termId : UInt32) (data : Bytes) : Option Bytes :=
  if data = [] ∨ kMaxTermDataBytes < data.length then none
  else writeCommon cap .termData 0 .terminal termId data

/-- `BuildTermExit`: the exit code as 32 bits. -/
def buildTermExit (cap : Nat) (termId exitCode : UInt32) : Option Bytes :=
  writeCommon cap .termExit 0 .terminal termId (putU32 exitCode)

/-- The columns and the rows of a size, clamped. -/
def putTermSize (size : TermSize) : Bytes :=
  putU16 (UInt16.ofNat (clampTermSize size).cols) ++ putU16 (UInt16.ofNat (clampTermSize size).rows)

def buildTermOpen (cap : Nat) (m : TermOpen) : Option Bytes :=
  writeCommon cap .termOpen 0 .terminal 0
    (putTermSize m.size ++ putU32 m.resumeId ++ putText kMaxClientNameBytes m.clientName)

def buildTermOpenAck (cap : Nat) (m : TermOpenAck) : Option Bytes :=
  writeCommon cap .termOpenAck 0 .terminal m.termId
    (putU32 m.termId ++ [m.reason.code, if m.resumed then 1 else 0])

def buildTermResize (cap : Nat) (termId : UInt32) (size : TermSize) : Option Bytes :=
  writeCommon cap .termResize 0 .terminal termId (putTermSize size)

/-- The entry of a session in a list; its state is never above `Local`. -/
def termEntry (e : TermSessionEntry) : Bytes :=
  putU32 e.termId ++ [e.state.code] ++ putTermSize e.size ++ putText kMaxClientNameBytes e.clientName

def buildTermListAck (cap : Nat) (m : TermSessionList) : Option Bytes :=
  let count :=
    if m.sessions.length < kMaxTermListEntries then m.sessions.length else kMaxTermListEntries
  writeCommon cap .termListAck 0 .terminal 0
    (putU16 (UInt16.ofNat count) ++ ((m.sessions.take count).map termEntry).flatten)

def buildTermClose (cap : Nat) (termId : UInt32) : Option Bytes :=
  writeCommon cap .termClose 0 .terminal termId []

def buildTermList (cap : Nat) : Option Bytes := writeCommon cap .termList 0 .terminal 0 []

/-! ## Parsers -/

/-- The columns and the rows at a pointer. -/
def getTermSize (p : Bytes) : TermSize :=
  { cols := (getU16 p).toNat, rows := (getU16 (p.drop 2)).toNat }

def parseTermOpen (payload : Bytes) : Option TermOpen :=
  if payload.length < 9 then none
  else
    let size := getTermSize payload
    if !isValidTermSize size then none
    else some
      { size := size
        resumeId := getU32 (payload.drop 4)
        clientName := readClientName payload 8 }

def parseTermOpenAck (payload : Bytes) : Option TermOpenAck :=
  if payload.length < 6 then none
  else
    (TermReason.ofCode? (byteAt payload 4)).map fun reason =>
      { termId := getU32 payload, reason := reason, resumed := byteAt payload 5 ≠ 0 }

def parseTermResize (payload : Bytes) : Option TermSize :=
  if payload.length < 4 then none
  else if !isValidTermSize (getTermSize payload) then none
  else some (getTermSize payload)

def parseTermExit (payload : Bytes) : Option Int32 :=
  if payload.length < 4 then none else some (getU32 payload).toInt32

/-- The loop of `ParseTermListAck` over `count` entries. -/
def parseTermEntries : Nat → Bytes → Option (List TermSessionEntry)
  | 0, _ => some []
  | count + 1, rest =>
      if rest.length < kTermListEntryFixedBytes then none
      else
        match TerminalState.ofCode? (byteAt rest 4) with
        | none => none
        | some state =>
            let size := getTermSize (rest.drop 5)
            if !isValidTermSize size then none
            else
              let nameLen := (byteAt rest 9).toNat
              if kMaxClientNameBytes < nameLen ∨ rest.length - kTermListEntryFixedBytes < nameLen then
                none
              else
                let e : TermSessionEntry :=
                  { termId := getU32 rest
                    state := state
                    size := size
                    clientName := (rest.drop kTermListEntryFixedBytes).take nameLen }
                (parseTermEntries count (rest.drop (kTermListEntryFixedBytes + nameLen))).map (e :: ·)

def parseTermListAck (payload : Bytes) : Option TermSessionList :=
  if payload.length < 2 then none
  else
    let count := (getU16 payload).toNat
    if kMaxTermListEntries < count then none
    else (parseTermEntries count (payload.drop 2)).map fun sessions => ⟨sessions⟩

/-! ## Round trips -/

/-- The data of a message of this kind. -/
def termData? (message : Bytes) : Option Bytes :=
  match parseCommonHeader message with
  | none => none
  | some h => if h.type = .termData then some (payloadOf message) else none

/-- The data that was built into a message reads back. -/
theorem termData?_build {cap : Nat} {termId : UInt32} {data message : Bytes}
    (h : buildTermData cap termId data = some message) : termData? message = some data := by
  unfold buildTermData at h
  split at h
  · cases h
  · have hheader := parseCommonHeader_writeCommon (by decide) (by intro b; simp) h
    simp only [termData?, hheader, payloadOf_writeCommon h, if_true]

/-- A clamped size is valid, and reads back. -/
theorem getTermSize_put (size : TermSize) (rest : Bytes) :
    getTermSize (putTermSize size ++ rest) = clampTermSize size ∧
      isValidTermSize (clampTermSize size) = true := by
  have hcols : (clampTermSize size).cols = min (max size.cols 1) 1000 := rfl
  have hrows : (clampTermSize size).rows = min (max size.rows 1) 1000 := rfl
  constructor
  · have hfirst : getU16 (putTermSize size ++ rest) = UInt16.ofNat (clampTermSize size).cols :=
      getU16_putU16 _ _
    have hsecond : getU16 ((putTermSize size ++ rest).drop 2) =
        UInt16.ofNat (clampTermSize size).rows := getU16_putU16 _ _
    unfold getTermSize
    rw [hfirst, hsecond, UInt16.toNat_ofNat', UInt16.toNat_ofNat', Nat.mod_eq_of_lt (by omega),
      Nat.mod_eq_of_lt (by omega)]
  · unfold isValidTermSize kMinTermCols kMaxTermCols kMinTermRows kMaxTermRows
    apply decide_eq_true
    omega

theorem parseTermOpen_payload (m : TermOpen) :
    parseTermOpen (putTermSize m.size ++ putU32 m.resumeId ++
        putText kMaxClientNameBytes m.clientName) =
      some { m with
        size := clampTermSize m.size
        clientName := removeControls (cutText kMaxClientNameBytes m.clientName) } := by
  rcases getTermSize_put m.size (putU32 m.resumeId ++ putText kMaxClientNameBytes m.clientName) with
    ⟨hsize, hvalid⟩
  have hresume : getU32 ((putTermSize m.size ++ putU32 m.resumeId ++
      putText kMaxClientNameBytes m.clientName).drop 4) = m.resumeId := getU32_putU32 m.resumeId _
  have hname : readClientName (putTermSize m.size ++ putU32 m.resumeId ++
      putText kMaxClientNameBytes m.clientName) 8 =
      removeControls (cutText kMaxClientNameBytes m.clientName) := readClientName_putText _ _
  rw [← List.append_assoc] at hsize
  unfold parseTermOpen
  dsimp only
  rw [if_neg, hsize, hvalid, if_neg (by decide), hresume, hname]
  rw [putText_eq]
  simp [putTermSize]
  omega

theorem parseTermOpenAck_payload (m : TermOpenAck) :
    parseTermOpenAck (putU32 m.termId ++ [m.reason.code, if m.resumed then 1 else 0]) = some m := by
  have hid : getU32 (putU32 m.termId ++ [m.reason.code, if m.resumed then 1 else 0]) = m.termId :=
    getU32_putU32 m.termId _
  have hreason : byteAt (putU32 m.termId ++ [m.reason.code, if m.resumed then 1 else 0]) 4 =
      m.reason.code := rfl
  have hresumed : byteAt (putU32 m.termId ++ [m.reason.code, if m.resumed then 1 else 0]) 5 =
      if m.resumed then 1 else 0 := rfl
  unfold parseTermOpenAck
  rw [if_neg (by simp), hreason, TermReason.ofCode?_code, Option.map_some, hid, hresumed]
  rcases m with ⟨termId, reason, resumed⟩
  cases resumed
  · rfl
  · rfl

theorem parseTermResize_payload (size : TermSize) :
    parseTermResize (putTermSize size) = some (clampTermSize size) := by
  rcases getTermSize_put size [] with ⟨hsize, hvalid⟩
  rw [List.append_nil] at hsize
  unfold parseTermResize
  rw [if_neg (by simp [putTermSize]), hsize, hvalid]
  rfl

theorem parseTermExit_payload (exitCode : Int32) :
    parseTermExit (putU32 exitCode.toUInt32) = some exitCode := by
  have hcode : getU32 (putU32 exitCode.toUInt32) = exitCode.toUInt32 :=
    getU32_putU32 exitCode.toUInt32 []
  unfold parseTermExit
  rw [if_neg (by simp), hcode]
  rfl

/-- A session as its entry carries it. -/
def TermSessionEntry.cut (e : TermSessionEntry) : TermSessionEntry :=
  { e with
    size := clampTermSize e.size
    clientName := cutText kMaxClientNameBytes e.clientName }

theorem parseTermEntries_entries (sessions : List TermSessionEntry) (rest : Bytes) :
    parseTermEntries sessions.length ((sessions.map termEntry).flatten ++ rest) =
      some (sessions.map TermSessionEntry.cut) := by
  induction sessions with
  | nil => rfl
  | cons e sessions ih =>
    -- the entry in front of the others
    generalize htail : (sessions.map termEntry).flatten ++ rest = tail at ih
    have hentry : ((e :: sessions).map termEntry).flatten ++ rest =
        (putU32 e.termId ++ [e.state.code] ++ putTermSize e.size) ++
          (putText kMaxClientNameBytes e.clientName ++ tail) := by
      rw [← htail, List.map_cons, List.flatten_cons, termEntry, List.append_assoc, List.append_assoc]
    have hshort := length_cutText_le kMaxClientNameBytes e.clientName
    have hlen := toNat_lengthByte kMaxClientNameBytes (by decide)
      (putU32 e.termId ++ [e.state.code] ++ putTermSize e.size) e.clientName tail
    have hdrop := drop_putText kMaxClientNameBytes
      (putU32 e.termId ++ [e.state.code] ++ putTermSize e.size) e.clientName tail
    have hfront : (putU32 e.termId ++ [e.state.code] ++ putTermSize e.size).length = 9 := rfl
    rw [hfront] at hlen hdrop
    have hsize : ((putU32 e.termId ++ [e.state.code] ++ putTermSize e.size) ++
        (putText kMaxClientNameBytes e.clientName ++ tail)).length =
        10 + (cutText kMaxClientNameBytes e.clientName).length + tail.length := by
      rw [List.length_append, hfront, putText_eq, List.cons_append, List.length_cons,
        List.length_append]
      omega
    generalize hp : (putU32 e.termId ++ [e.state.code] ++ putTermSize e.size) ++
      (putText kMaxClientNameBytes e.clientName ++ tail) = p at hentry hlen hdrop hsize
    have hid : getU32 p = e.termId := by
      rw [← hp]
      exact getU32_putU32 e.termId _
    have hstate : byteAt p 4 = e.state.code := by
      rw [← hp]
      rfl
    have hterm : getTermSize (p.drop 5) = clampTermSize e.size := by
      rw [← hp]
      exact (getTermSize_put e.size _).1
    have hvalid := (getTermSize_put e.size []).2
    have hbehind : p.drop (kTermListEntryFixedBytes +
        (cutText kMaxClientNameBytes e.clientName).length) = tail := by
      rw [← List.drop_drop]
      exact (congrArg _ hdrop).trans List.drop_left
    have hname : p.drop kTermListEntryFixedBytes =
        cutText kMaxClientNameBytes e.clientName ++ tail := hdrop
    have hfixed : kTermListEntryFixedBytes = 10 := rfl
    rw [hentry, List.length_cons, parseTermEntries, hstate, TerminalState.ofCode?_code]
    dsimp only
    rw [hlen, hterm, hvalid, hid, hname, hbehind, hsize, ih, List.take_left, if_neg (by omega),
      if_neg (by decide), if_neg (by omega)]
    rfl

theorem parseTermListAck_payload {sessions : List TermSessionEntry}
    (hmax : sessions.length ≤ kMaxTermListEntries) :
    parseTermListAck (putU16 (UInt16.ofNat sessions.length) ++ (sessions.map termEntry).flatten) =
      some ⟨sessions.map TermSessionEntry.cut⟩ := by
  have hlimit : kMaxTermListEntries = 16 := rfl
  have hcount : (getU16 (putU16 (UInt16.ofNat sessions.length) ++
      (sessions.map termEntry).flatten)).toNat = sessions.length := by
    rw [getU16_putU16, UInt16.toNat_ofNat', Nat.mod_eq_of_lt (by omega)]
  have hdrop : (putU16 (UInt16.ofNat sessions.length) ++ (sessions.map termEntry).flatten).drop 2 =
      (sessions.map termEntry).flatten ++ [] := by
    rw [List.append_nil]
    rfl
  have hlen : ¬ (putU16 (UInt16.ofNat sessions.length) ++
      (sessions.map termEntry).flatten).length < 2 := by
    rw [List.length_append, length_putU16]
    omega
  unfold parseTermListAck
  dsimp only
  rw [hcount, hdrop, parseTermEntries_entries, if_neg hlen, if_neg (by omega)]
  rfl

/-! ## Whole messages -/

/-- What the messages of the terminal channel carry. -/
inductive TermMessage where
  | list
  | listAck (sessions : TermSessionList)
  | «open» (request : TermOpen)
  | openAck (ack : TermOpenAck)
  | data (termId : UInt32) (bytes : Bytes)
  | resize (termId : UInt32) (size : TermSize)
  | exit (termId : UInt32) (exitCode : Int32)
  | close (termId : UInt32)
deriving DecidableEq, Repr

/-- The switch of both ends' `HandleMessage`, with the parser of each type. -/
def readTermPayload (type : MsgType) (sessionId : UInt32) (payload : Bytes) : Option TermMessage :=
  match type with
  | .termList => some .list
  | .termListAck => (parseTermListAck payload).map .listAck
  | .termOpen => (parseTermOpen payload).map .open
  | .termOpenAck => (parseTermOpenAck payload).map .openAck
  | .termData => some (.data sessionId payload)
  | .termResize => (parseTermResize payload).map (.resize sessionId)
  | .termExit => (parseTermExit payload).map (.exit sessionId)
  | .termClose => some (.close sessionId)
  | _ => none

def readTermMessage (message : Bytes) : Option TermMessage :=
  match parseCommonHeader message with
  | none => none
  | some header =>
      if header.chan ≠ .terminal then none
      else readTermPayload header.type header.sessionId (payloadOf message)

theorem readTermMessage_writeCommon {cap : Nat} {type : MsgType} {termId : UInt32}
    {payload message : Bytes} (htype : type ∈ MsgType.declared)
    (h : writeCommon cap type 0 .terminal termId payload = some message) :
    readTermMessage message = readTermPayload type termId payload := by
  have hheader := parseCommonHeader_writeCommon htype (by intro b; simp) h
  unfold readTermMessage
  rw [hheader, payloadOf_writeCommon h]
  rfl

theorem readTermMessage_open {cap : Nat} {m : TermOpen} {message : Bytes}
    (h : buildTermOpen cap m = some message) :
    readTermMessage message = some (.open { m with
      size := clampTermSize m.size
      clientName := removeControls (cutText kMaxClientNameBytes m.clientName) }) := by
  rw [readTermMessage_writeCommon (by decide) h, readTermPayload]
  rw [parseTermOpen_payload]
  rfl

theorem readTermMessage_openAck {cap : Nat} {m : TermOpenAck} {message : Bytes}
    (h : buildTermOpenAck cap m = some message) : readTermMessage message = some (.openAck m) := by
  rw [readTermMessage_writeCommon (by decide) h, readTermPayload]
  rw [parseTermOpenAck_payload]
  rfl

theorem readTermMessage_resize {cap : Nat} {termId : UInt32} {size : TermSize} {message : Bytes}
    (h : buildTermResize cap termId size = some message) :
    readTermMessage message = some (.resize termId (clampTermSize size)) := by
  rw [readTermMessage_writeCommon (by decide) h, readTermPayload]
  rw [parseTermResize_payload]
  rfl

theorem readTermMessage_close {cap : Nat} {termId : UInt32} {message : Bytes}
    (h : buildTermClose cap termId = some message) :
    readTermMessage message = some (.close termId) :=
  readTermMessage_writeCommon (by decide) h

theorem readTermMessage_list {cap : Nat} {message : Bytes} (h : buildTermList cap = some message) :
    readTermMessage message = some .list :=
  readTermMessage_writeCommon (by decide) h

theorem readTermMessage_data {cap : Nat} {termId : UInt32} {bytes message : Bytes}
    (h : buildTermData cap termId bytes = some message) :
    readTermMessage message = some (.data termId bytes) := by
  unfold buildTermData at h
  split at h
  · cases h
  · exact readTermMessage_writeCommon (by decide) h

/-- What reads as the answer to a list was built as one, and as nothing else. -/
theorem readTermMessage_listAck {cap : Nat} {m : TermSessionList} {message : Bytes}
    (h : buildTermListAck cap m = some message) :
    readTermMessage message = none ∨ ∃ sessions, readTermMessage message = some (.listAck sessions) := by
  unfold buildTermListAck at h
  rw [readTermMessage_writeCommon (by decide) h, readTermPayload]
  cases parseTermListAck _ with
  | none => exact .inl rfl
  | some sessions => exact .inr ⟨sessions, rfl⟩

end Deskhub
