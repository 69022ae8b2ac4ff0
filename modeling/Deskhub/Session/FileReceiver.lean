import Deskhub.Lib.Machine
import Deskhub.Protocol.Wire.File
import Deskhub.Transfer.Crc32
import Deskhub.Transfer.SafeName

/-!
# The file receiver

`FileReceiver`: one batch at a time, one open file at a time. Callbacks are
outputs together with what they returned; the results of `open`, `write` and
`close` come with each call, which makes at most one call of each. File indexes
and byte counts are numbers: they stay below the sizes of the offer.
-/

namespace Deskhub

inductive FileReceiverState where
  | idle | receiving | done | failed
deriving DecidableEq, Repr

structure FileReceiverLimits where
  maxFiles : Nat := kMaxTransferFiles
  maxFileBytes : UInt64 := kMaxTransferFileBytes
  maxBatchBytes : UInt64 := kMaxTransferBatchBytes
deriving DecidableEq, Repr

structure TransferProgress where
  batchId : UInt32 := 0
  fileIndex : Nat := 0
  fileCount : Nat := 0
  fileBytes : Nat := 0
  fileSize : UInt64 := 0
  batchBytes : Nat := 0
  batchSize : Nat := 0
  name : Bytes := []
deriving DecidableEq, Repr

def transferReasonName : TransferReason → Bytes
  | .accepted => ascii "accepted"
  | .notAccepting => ascii "not-accepting"
  | .busy => ascii "busy"
  | .tooManyFiles => ascii "too-many-files"
  | .tooLarge => ascii "too-large"
  | .badName => ascii "bad-name"
  | .writeFailed => ascii "write-failed"
  | .corrupt => ascii "corrupt"
  | .cancelled => ascii "cancelled"
  | .linkLost => ascii "link-lost"
  | .readFailed => ascii "read-failed"

/-- The callbacks, with what they returned. An audit line is named by what it is
made of next to the peer. -/
inductive FileReceiverEvent where
  | send (message : Bytes)
  | opened (fileIndex : Nat) (safeName : Bytes) (size : UInt64) (stored : Bytes)
  | wrote (fileIndex : Nat) (data : Bytes) (ok : Bool)
  | closed (fileIndex : Nat) (keep ok : Bool)
  | progress (p : TransferProgress)
  | audit (batchId : UInt32) (what : String) (detail : Bytes)
deriving DecidableEq, Repr

/-- What `open`, `write` and `close` return during one call. -/
structure FileCallbackResults where
  stored : Bytes := []
  written : Bool := false
  closed : Bool := false
deriving DecidableEq, Repr

structure FileReceiver where
  limits : FileReceiverLimits := {}
  accepting : Bool := false
  state : FileReceiverState := .idle
  reason : TransferReason := .accepted
  batchId : UInt32 := 0
  files : List TransferFile := []
  names : List Bytes := []
  stored : List Bytes := []
  index : Nat := 0
  received : Nat := 0
  batchReceived : Nat := 0
  batchSize : Nat := 0
  fileOpen : Bool := false
  crc : Crc32 := {}
deriving DecidableEq, Repr

/-- The file with index `i` of a batch. -/
def fileAt (files : List TransferFile) (i : Nat) : TransferFile := files.getD i {}

namespace FileReceiver

def busy (s : FileReceiver) : Bool := s.state = .receiving

def progress (s : FileReceiver) : TransferProgress :=
  let p : TransferProgress :=
    { batchId := s.batchId
      fileIndex := s.index
      fileCount := s.files.length
      fileBytes := s.received
      batchBytes := s.batchReceived
      batchSize := s.batchSize }
  if s.index < s.files.length then
    let stored := s.stored.getD s.index []
    { p with
      fileSize := (fileAt s.files s.index).size
      name := if stored = [] then s.names.getD s.index [] else stored }
  else p

def report (s : FileReceiver) : List FileReceiverEvent := [.progress s.progress]

def audit (s : FileReceiver) (what : String) (detail : Bytes) : List FileReceiverEvent :=
  [.audit s.batchId what detail]

def emit (built : Option Bytes) : List FileReceiverEvent := (built.map .send).toList

def ack (s : FileReceiver) (reason : TransferReason) : List FileReceiverEvent :=
  emit (buildFileAck kMaxRecordSize ⟨s.batchId, UInt16.ofNat s.index, reason⟩)

def refuse (batchId : UInt32) (reason : TransferReason) : List FileReceiverEvent :=
  emit (buildFileAccept kMaxRecordSize ⟨batchId, reason⟩) ++
    [.audit batchId "refused" (transferReasonName reason)]

/-- `CloseCurrent`: nothing is called when no file is open. -/
def closeCurrent (s : FileReceiver) (keep : Bool) (cb : FileCallbackResults) :
    FileReceiver × List FileReceiverEvent × Bool :=
  if !s.fileOpen then (s, [], true)
  else ({ s with fileOpen := false }, [.closed s.index keep cb.closed], cb.closed)

def abort (s : FileReceiver) (reason : TransferReason) (tellPeer : Bool)
    (cb : FileCallbackResults) : FileReceiver × List FileReceiverEvent :=
  let (s, closed, _) := s.closeCurrent false cb
  let told := if tellPeer then emit (buildFileCancel kMaxRecordSize ⟨s.batchId, reason⟩) else []
  let s := { s with state := .failed, reason := reason }
  (s, closed ++ told ++ s.audit "aborted" (transferReasonName reason) ++ s.report)

/-- `OpenCurrent`: false when the file could not be opened, which ends the batch. -/
def openCurrent (s : FileReceiver) (cb : FileCallbackResults) :
    FileReceiver × List FileReceiverEvent × Bool :=
  let opened := .opened s.index (s.names.getD s.index []) (fileAt s.files s.index).size cb.stored
  if cb.stored = [] then
    let (s, aborted) := s.abort .writeFailed true cb
    (s, opened :: aborted, false)
  else
    ({ s with stored := s.stored.set s.index cb.stored, fileOpen := true }, [opened], true)

/-- `if (!fileOpen_ && !OpenCurrent()) return;` -/
def ensureOpen (s : FileReceiver) (cb : FileCallbackResults) :
    FileReceiver × List FileReceiverEvent × Bool :=
  if s.fileOpen then (s, [], true) else s.openCurrent cb

/-- The loop of `Admit` over the files, with the bytes summed so far. -/
def admitFiles (limits : FileReceiverLimits) : List TransferFile → UInt64 →
    TransferReason × List Bytes
  | [], _ => (.accepted, [])
  | f :: rest, total =>
      if f.size > limits.maxFileBytes then (.tooLarge, [])
      else
        let total := total + f.size
        if total > limits.maxBatchBytes then (.tooLarge, [])
        else
          let safe := safeFileName f.name
          if safe = [] then (.badName, [])
          else
            let (verdict, names) := admitFiles limits rest total
            (verdict, safe :: names)

/-- `Admit`. -/
def admitOffer (s : FileReceiver) (offer : FileOffer) : TransferReason × List Bytes :=
  if !s.accepting then (.notAccepting, [])
  else if s.state = .receiving then (.busy, [])
  else if offer.files = [] then (.corrupt, [])
  else if s.limits.maxFiles < offer.files.length then (.tooManyFiles, [])
  else admitFiles s.limits offer.files 0

def onOffer (s : FileReceiver) (payload : Bytes) : FileReceiver × List FileReceiverEvent :=
  match parseFileOffer payload with
  | none => (s, [])
  | some offer =>
      let (verdict, safeNames) := s.admitOffer offer
      if verdict ≠ .accepted then (s, refuse offer.batchId verdict)
      else
        let s :=
          { s with
            batchId := offer.batchId
            files := offer.files
            names := safeNames
            stored := List.replicate offer.files.length []
            index := 0
            received := 0
            batchReceived := 0
            batchSize := (offer.files.map (fun f => f.size.toNat)).sum
            fileOpen := false
            crc := .reset
            state := .receiving
            reason := .accepted }
        (s, emit (buildFileAccept kMaxRecordSize ⟨s.batchId, .accepted⟩) ++
          s.audit "offered" (decimal s.files.length ++ ascii " files, " ++ decimal s.batchSize ++
            ascii " bytes") ++ s.report)

def onChunk (s : FileReceiver) (payload : Bytes) (cb : FileCallbackResults) :
    FileReceiver × List FileReceiverEvent :=
  match parseFileChunk payload with
  | none => (s, [])
  | some chunk =>
      if chunk.batchId ≠ s.batchId then (s, [])
      else if s.state ≠ .receiving then (s, [])
      else if chunk.fileIndex.toNat ≠ s.index ∨ chunk.offset.toNat ≠ s.received then
        s.abort .corrupt true cb
      else if (fileAt s.files s.index).size.toNat - s.received < chunk.data.length then
        s.abort .corrupt true cb
      else
        let (s, opened, ok) := s.ensureOpen cb
        if !ok then (s, opened)
        else
          let wrote := .wrote s.index chunk.data cb.written
          if !cb.written then
            let (s, aborted) := s.abort .writeFailed true cb
            (s, opened ++ wrote :: aborted)
          else
            let s :=
              { s with
                crc := s.crc.update chunk.data
                received := s.received + chunk.data.length
                batchReceived := s.batchReceived + chunk.data.length }
            (s, opened ++ wrote :: s.report)

def onDone (s : FileReceiver) (payload : Bytes) (cb : FileCallbackResults) :
    FileReceiver × List FileReceiverEvent :=
  match parseFileDone payload with
  | none => (s, [])
  | some done =>
      if done.batchId ≠ s.batchId then (s, [])
      else if s.state ≠ .receiving then (s, [])
      else if done.fileIndex.toNat ≠ s.index ∨
          s.received ≠ (fileAt s.files s.index).size.toNat then
        s.abort .corrupt true cb
      else
        let (s, opened, ok) := s.ensureOpen cb
        if !ok then (s, opened)
        else if done.crc32 ≠ s.crc.value then
          let (s, closed, _) := s.closeCurrent false cb
          let (s', aborted) := s.abort .corrupt false cb
          (s', opened ++ closed ++ s.audit "corrupt" (s.names.getD s.index []) ++ s.ack .corrupt ++
            aborted)
        else
          let (s, closed, kept) := s.closeCurrent true cb
          if !kept then
            let (s', aborted) := s.abort .writeFailed false cb
            (s', opened ++ closed ++ s.audit "write_failed" (s.stored.getD s.index []) ++
              s.ack .writeFailed ++ aborted)
          else
            let stored := s.audit "stored" (s.stored.getD s.index []) ++ s.ack .accepted
            let s := { s with index := s.index + 1, received := 0, crc := .reset }
            if s.files.length ≤ s.index then
              let s := { s with state := .done, reason := .accepted }
              (s, opened ++ closed ++ stored ++ s.audit "complete" [] ++ s.report)
            else (s, opened ++ closed ++ stored ++ s.report)

def onCancel (s : FileReceiver) (payload : Bytes) (cb : FileCallbackResults) :
    FileReceiver × List FileReceiverEvent :=
  match parseFileCancel payload with
  | none => (s, [])
  | some cancel =>
      if cancel.batchId ≠ s.batchId then (s, [])
      else if !s.busy then (s, [])
      else s.abort cancel.reason false cb

def handleMessage (s : FileReceiver) (message : Bytes) (cb : FileCallbackResults) :
    FileReceiver × List FileReceiverEvent :=
  match parseCommonHeader message with
  | none => (s, [])
  | some header =>
      if header.chan ≠ .file then (s, [])
      else
        let payload := payloadOf message
        match header.type with
        | .fileOffer => s.onOffer payload
        | .fileChunk => s.onChunk payload cb
        | .fileDone => s.onDone payload cb
        | .fileCancel => s.onCancel payload cb
        | _ => (s, [])

def setAccepting (s : FileReceiver) (on : Bool) (cb : FileCallbackResults) :
    FileReceiver × List FileReceiverEvent :=
  let s := { s with accepting := on }
  if !on && s.busy then s.abort .notAccepting true cb else (s, [])

def linkLost (s : FileReceiver) (cb : FileCallbackResults) :
    FileReceiver × List FileReceiverEvent :=
  if !s.busy then (s, []) else s.abort .linkLost false cb

end FileReceiver

/-- The calls of a file receiver. -/
inductive FileReceiverCall where
  | handleMessage (message : Bytes) (cb : FileCallbackResults)
  | setAccepting (on : Bool) (cb : FileCallbackResults)
  | linkLost (cb : FileCallbackResults)
  | setLimits (limits : FileReceiverLimits)
deriving DecidableEq, Repr

/-- The file receiver as a machine. -/
def fileReceiver : Machine FileReceiver FileReceiverCall FileReceiverEvent where
  step s
    | .handleMessage message cb => s.handleMessage message cb
    | .setAccepting on cb => s.setAccepting on cb
    | .linkLost cb => s.linkLost cb
    | .setLimits limits => ({ s with limits := limits }, [])

end Deskhub
