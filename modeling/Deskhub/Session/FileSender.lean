import Deskhub.Session.FileBrackets
import Deskhub.Session.FileReceiver

/-!
# A burst of errors is never kept

The transfer checksum over any cutting of a string, and what follows for the files a receiver keeps:
none differs from what was sent within four consecutive bytes only.
-/

namespace Deskhub

/-- The strings are of one length and agree outside `n` consecutive bytes. -/
def DifferWithin (n : Nat) (xs ys : Bytes) : Prop :=
  xs.length = ys.length ∧ ∃ i, ∀ j, j < i ∨ i + n ≤ j → xs[j]? = ys[j]?

/-- The parts that agree, and between them the part that may not. -/
theorem DifferWithin.parts {n : Nat} {xs ys : Bytes} (h : DifferWithin n xs ys) :
    ∃ front mid mid' back : Bytes, xs = front ++ mid ++ back ∧ ys = front ++ mid' ++ back ∧
      mid.length = mid'.length ∧ mid.length ≤ n := by
  rcases h with ⟨hlen, i, hagree⟩
  have hcut : ∀ zs : Bytes, zs = zs.take i ++ (zs.drop i).take n ++ zs.drop (i + n) := by
    intro zs
    rw [List.append_assoc, ← List.drop_drop, List.take_append_drop, List.take_append_drop]
  have hfront : ys.take i = xs.take i := by
    apply List.ext_getElem?
    intro j
    rw [List.getElem?_take, List.getElem?_take]
    split
    · next hbefore => exact (hagree j (.inl hbefore)).symm
    · rfl
  have hback : ys.drop (i + n) = xs.drop (i + n) := by
    apply List.ext_getElem?
    intro j
    rw [List.getElem?_drop, List.getElem?_drop]
    exact (hagree _ (.inr (Nat.le_add_right _ _))).symm
  refine ⟨xs.take i, (xs.drop i).take n, (ys.drop i).take n, xs.drop (i + n), hcut xs, ?_, ?_, ?_⟩
  · rw [← hfront, ← hback]
    exact hcut ys
  · rw [List.length_take, List.length_take, List.length_drop, List.length_drop, hlen]
  · exact List.length_take_le _ _

/-- The checksum of a string finds a burst of errors. -/
theorem crc32_burst {xs ys : Bytes} (h : DifferWithin 4 xs ys) (hsame : crc32 xs = crc32 ys) :
    xs = ys := by
  rcases h.parts with ⟨front, mid, mid', back, rfl, rfl, hlen, hmost⟩
  rw [Crc.eq_of_code_eq (by decide) hlen hmost hsame]

/-- Any cutting of a string into updates. -/
theorem Crc32.value_updates (pieces : List Bytes) :
    (pieces.foldl Crc32.update Crc32.reset).value = crc32 pieces.flatten := by
  have hfold : ∀ crc : Crc32, pieces.foldl Crc32.update crc = crc.update pieces.flatten := by
    induction pieces with
    | nil => exact fun _ => rfl
    | cons piece pieces ih =>
      intro crc
      rw [List.foldl_cons, ih, Crc32.update_append, List.flatten_cons]
  rw [hfold, Crc32.value_update]

/-- What a ledger of the callbacks allows when no burst is to be kept: a file is kept only when
everything that has the checksum of the `FileDone` and differs from what was written within four
consecutive bytes is what was written. -/
def burstLedger : Watcher FileLedger FileReceiverCall FileReceiverEvent where
  after := fileLedger.after
  allows n call
    | .closed _ true _ =>
        ∃ f, n.current = some f ∧
          ∀ sent, call.crc? = some (crc32 sent) → DifferWithin 4 sent f.written → sent = f.written
    | _ => True

/-- The transfer checksum is CRC-32 for any cutting, it finds bursts, and no burst is kept. -/
theorem checksum_finds_bursts :
    (∀ pieces : List Bytes,
      (pieces.foldl Crc32.update Crc32.reset).value = crc32 pieces.flatten) ∧
    (∀ xs ys : Bytes, DifferWithin 4 xs ys → xs ≠ ys →
      (Crc32.reset.update xs).value ≠ (Crc32.reset.update ys).value) ∧
    ∀ calls, burstLedger.Accepts {} (fileReceiver.trace {} calls) := by
  refine ⟨Crc32.value_updates, ?_, ?_⟩
  · intro xs ys hburst hne hsame
    rw [Crc32.value_update, Crc32.value_update] at hsame
    exact hne (crc32_burst hburst hsame)
  · intro calls
    have hbracketed := (fileLedger.watch FileReceiver.Tracks FileReceiver.init_tracks
      (fun s n call h => FileReceiver.step_passes h call) calls).1
    refine hbracketed.mono ?_ ?_
    · rfl
    intro n call e hallowed
    cases e with
    | closed i keep ok =>
      cases keep with
      | false => trivial
      | true =>
        rcases hallowed with ⟨f, hcurrent, -, hkept⟩
        refine ⟨f, hcurrent, ?_⟩
        intro sent hsent hburst
        have hcrc := (hkept rfl).2.2
        rw [hcrc] at hsent
        exact crc32_burst hburst (Option.some.inj hsent).symm
    | _ => trivial

/-!
## The file sender

`FileSender`: the offer, the chunks and the end of each file, as far as `send`
takes them. What `read` and `send` return comes with each call: `Pump` makes at
most one read and three sends in each turn of its loop.
-/

inductive FileSenderState where
  | idle | offering | sending | done | refused | failed
deriving DecidableEq, Repr

/-- The callbacks; a message is an output when `send` took it. -/
inductive FileSenderEvent where
  | sent (message : Bytes)
  | progress (p : TransferProgress)
  | finished (state : FileSenderState) (reason : TransferReason)
deriving DecidableEq, Repr

structure FileSender where
  state : FileSenderState := .idle
  reason : TransferReason := .accepted
  batchId : UInt32 := 0
  files : List TransferFile := []
  index : Nat := 0
  acked : Nat := 0
  sent : Nat := 0
  batchSent : Nat := 0
  batchSize : Nat := 0
  crc : Crc32 := {}
deriving DecidableEq, Repr

/-- One turn of `Pump`: the read callback, and whether `send` takes the chunk, the
`FileDone` and a cancel. -/
structure ChunkIo where
  read : Nat → Nat → Nat → Bytes
  takesChunk : Bool
  takesDone : Bool
  takesCancel : Bool

namespace FileSender

def busy (s : FileSender) : Bool := s.state = .offering || s.state = .sending

def progress (s : FileSender) : TransferProgress :=
  let p : TransferProgress :=
    { batchId := s.batchId
      fileIndex := s.index
      fileCount := s.files.length
      fileBytes := s.sent
      batchBytes := s.batchSent
      batchSize := s.batchSize }
  if s.index < s.files.length then
    { p with fileSize := (fileAt s.files s.index).size, name := (fileAt s.files s.index).name }
  else p

def report (s : FileSender) : List FileSenderEvent := [.progress s.progress]

/-- `Emit`: the message, when the callback takes it. -/
def emit (message : Bytes) (takes : Bool) : List FileSenderEvent :=
  if takes then [.sent message] else []

def finish (s : FileSender) (state : FileSenderState) (reason : TransferReason) :
    FileSender × List FileSenderEvent :=
  ({ s with state := state, reason := reason }, [.finished state reason])

def abort (s : FileSender) (reason : TransferReason) (takesCancel : Bool) :
    FileSender × List FileSenderEvent :=
  let told :=
    match buildFileCancel kMaxRecordSize ⟨s.batchId, reason⟩ with
    | none => []
    | some message => emit message takesCancel
  let (s, finished) := s.finish .failed reason
  (s, told ++ finished)

/-- The loop of `Offer` over the files: their safe names, and the bytes in all. -/
def checkFiles : List TransferFile → UInt64 → Option (List TransferFile × UInt64)
  | [], total => some ([], total)
  | f :: rest, total =>
      let f := { f with name := safeFileName f.name }
      if f.name = [] ∨ f.size > kMaxTransferFileBytes then none
      else
        let total := total + f.size
        if total > kMaxTransferBatchBytes then none
        else (checkFiles rest total).map (fun r => (f :: r.1, r.2))

/-- `Offer`: also whether the offer went out. -/
def offer (s : FileSender) (batchId : UInt32) (files : List TransferFile) (takes : Bool) :
    FileSender × List FileSenderEvent × Bool :=
  if s.busy then (s, [], false)
  else if files = [] ∨ kMaxTransferFiles < files.length then (s, [], false)
  else
    match checkFiles files 0 with
    | none => (s, [], false)
    | some (files, total) =>
        let s :=
          { s with
            batchId := batchId
            files := files
            batchSize := total.toNat
            batchSent := 0
            index := 0
            sent := 0
            crc := .reset
            acked := 0
            reason := .accepted }
        match buildFileOffer kMaxRecordSize ⟨batchId, files⟩ with
        | none => ({ s with state := .idle }, [], false)
        | some message =>
            if takes then ({ s with state := .offering }, [.sent message], true)
            else ({ s with state := .idle }, [], false)

def onAccept (s : FileSender) (payload : Bytes) : FileSender × List FileSenderEvent :=
  if s.state ≠ .offering then (s, [])
  else
    match parseFileAccept payload with
    | none => (s, [])
    | some accept =>
        if accept.batchId ≠ s.batchId then (s, [])
        else if accept.reason ≠ .accepted then s.finish .refused accept.reason
        else
          let s := { s with state := .sending }
          (s, s.report)

def onAck (s : FileSender) (payload : Bytes) (takesCancel : Bool) :
    FileSender × List FileSenderEvent :=
  if s.state ≠ .sending then (s, [])
  else
    match parseFileAck payload with
    | none => (s, [])
    | some ack =>
        if ack.batchId ≠ s.batchId then (s, [])
        else if ack.reason ≠ .accepted then s.finish .failed ack.reason
        else if ack.fileIndex.toNat ≠ s.acked then s.abort .corrupt takesCancel
        else
          let s := { s with acked := s.acked + 1 }
          if s.files.length ≤ s.acked then s.finish .done .accepted else (s, [])

def onCancel (s : FileSender) (payload : Bytes) : FileSender × List FileSenderEvent :=
  match parseFileCancel payload with
  | none => (s, [])
  | some cancel =>
      if cancel.batchId ≠ s.batchId then (s, [])
      else if !s.busy then (s, [])
      else s.finish (if s.state = .offering then .refused else .failed) cancel.reason

def handleMessage (s : FileSender) (message : Bytes) (takesCancel : Bool) :
    FileSender × List FileSenderEvent :=
  match parseCommonHeader message with
  | none => (s, [])
  | some header =>
      if header.chan ≠ .file then (s, [])
      else
        let payload := payloadOf message
        match header.type with
        | .fileAccept => s.onAccept payload
        | .fileAck => s.onAck payload takesCancel
        | .fileCancel => s.onCancel payload
        | _ => (s, [])

/-- `FinishFile`: also whether the `FileDone` went out. -/
def finishFile (s : FileSender) (io : ChunkIo) : FileSender × List FileSenderEvent × Bool :=
  match buildFileDone kMaxRecordSize ⟨s.batchId, UInt16.ofNat s.index, s.crc.value⟩ with
  | none =>
      let (s, aborted) := s.abort .readFailed io.takesCancel
      (s, aborted, false)
  | some message =>
      if !io.takesDone then (s, [], false)
      else ({ s with crc := .reset, sent := 0, index := s.index + 1 }, [.sent message], true)

def sendOneChunk (s : FileSender) (io : ChunkIo) : FileSender × List FileSenderEvent × Bool :=
  if s.files.length ≤ s.index then (s, [], false)
  else
    let file := fileAt s.files s.index
    if file.size.toNat ≤ s.sent then s.finishFile io
    else
      let left := file.size.toNat - s.sent
      let want := if left < kMaxFileChunkBytes then left else kMaxFileChunkBytes
      let data := io.read s.index s.sent want
      if data = [] ∨ want < data.length then
        let (s, aborted) := s.abort .readFailed io.takesCancel
        (s, aborted, false)
      else
        match buildFileChunk kMaxRecordSize
            ⟨s.batchId, UInt16.ofNat s.index, UInt64.ofNat s.sent, data⟩ with
        | none =>
            let (s, aborted) := s.abort .readFailed io.takesCancel
            (s, aborted, false)
        | some message =>
            if !io.takesChunk then (s, [], false)
            else
              let s :=
                { s with
                  crc := s.crc.update data
                  sent := s.sent + data.length
                  batchSent := s.batchSent + data.length }
              let out := .sent message :: s.report
              if file.size.toNat ≤ s.sent then
                let (s, more, ok) := s.finishFile io
                (s, out ++ more, ok)
              else (s, out, true)

/-- `Pump`: at most as many turns as there are entries. -/
def pump (s : FileSender) : List ChunkIo → FileSender × List FileSenderEvent
  | [] => (s, [])
  | io :: rest =>
      if s.state ≠ .sending then (s, [])
      else
        let (s, out, ok) := s.sendOneChunk io
        if !ok then (s, out)
        else
          let (s, more) := pump s rest
          (s, out ++ more)

def cancel (s : FileSender) (takesCancel : Bool) : FileSender × List FileSenderEvent :=
  if !s.busy then (s, []) else s.abort .cancelled takesCancel

def linkLost (s : FileSender) : FileSender × List FileSenderEvent :=
  if !s.busy then (s, []) else s.finish .failed .linkLost

end FileSender

end Deskhub
