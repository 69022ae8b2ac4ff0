import Deskhub.Session.FileLink
import Deskhub.Lib.Extents
import Deskhub.Session.FileSenderDone

/-!
# Sending files from a disk

`FileUpload`: a file sender that is fed by a thread that reads ahead. The thread fills a ring of
chunks, as long as it holds less than `kMaxReadAheadBytes`; `Pump` hands the sender no more turns than
the ring can serve. The calls of other threads are cut where the source lets go of its lock, so that
any other call and the thread may come in between.
-/

namespace Deskhub

def kFileChunksPerTick : Nat := 8
def kMaxReadAheadBytes : Nat := 1 <<< 20

structure ReadChunk where
  index : Nat := 0
  offset : Nat := 0
  data : Bytes := []
deriving DecidableEq, Repr

/-- `ReaderThread` between two reads; `held` is the chunk it waits to put into the ring. -/
structure ReaderThread where
  plan : List TransferFile
  index : Nat := 0
  offset : Nat := 0
  held : Option ReadChunk := none
deriving DecidableEq, Repr

/-- What a read of the disk gives the thread, which asks for no more than a chunk. -/
def ReaderThread.reads (r : ReaderThread) (answer : Option Bytes) : Bytes :=
  let left := (fileAt r.plan r.index).size.toNat - r.offset
  let want := if left < kMaxFileChunkBytes then left else kMaxFileChunkBytes
  (answer.getD []).take want

/-- `Pending`: what the next `Flush` tells. -/
structure UploadPending where
  progress : Option TransferProgress := none
  finish : Option (FileSenderState × TransferReason) := none
deriving DecidableEq, Repr

/-- A call between two of its locked sections. -/
inductive UploadCall where
  /-- `Begin` before `StopReader`, and while that waits for the thread of the batch before. -/
  | checked
  | beginning (joins : Option Nat)
  /-- `Flush` before it takes what is pending. -/
  | flushing
  /-- `Flush` before `StopReader`, and while that waits for the thread. -/
  | stopping (ready : UploadPending)
  | joining (joins : Option Nat) (ready : UploadPending)
  /-- `Flush` before its callbacks. -/
  | telling (ready : UploadPending)
deriving DecidableEq, Repr

structure FileUpload where
  sender : FileSender := {}
  error : Bytes := []
  pending : UploadPending := {}
  nextBatchId : UInt32 := 1
  ring : List ReadChunk := []
  ringBytes : Nat := 0
  readerStop : Bool := false
  readerEof : Bool := false
  readerFailed : Bool := false
  /-- The thread that `reader_` stands for, and the threads that run. -/
  reader : Option Nat := none
  threads : List (Nat × ReaderThread) := []
  nextThread : Nat := 0
  calls : List UploadCall := []
deriving DecidableEq, Repr

/-- What the file system says of a path. -/
structure PathFacts where
  path : Bytes
  fileName : Bytes
  isRegular : Bool := true
  size : Option UInt64
  opens : Bool := true
deriving DecidableEq, Repr

/-- What `send` takes in one turn of `Pump`. -/
structure SendAnswers where
  takesChunk : Bool := true
  takesDone : Bool := true
  takesCancel : Bool := true
deriving DecidableEq, Repr

/-- The hooks of the sender, the callbacks that `Flush` makes, and what `Begin` returns. -/
inductive UploadEvent where
  | hook (e : FileSenderEvent)
  | told (ready : UploadPending)
  | began (ok : Bool)
deriving DecidableEq, Repr

/-! ## Choosing the files -/

/-- `InspectFiles`: the files of the batch, or the error. -/
def inspectFiles (paths : List PathFacts) : Except Bytes (List TransferFile) :=
  if paths = [] then .error (ascii "No file chosen.")
  else if kMaxTransferFiles < paths.length then
    .error (ascii "Too many files at once " ++ [0xE2, 0x80, 0x94] ++ ascii " " ++ decimal kMaxTransferFiles ++
      ascii " is the most one batch carries.")
  else paths.mapM inspect
where
  inspect (p : PathFacts) : Except Bytes TransferFile :=
    if !p.isRegular then .error (p.path ++ ascii " is not a file that can be sent.")
    else
      match p.size with
      | none => .error (p.path ++ ascii " could not be measured.")
      | some size =>
          let name := safeFileName p.fileName
          if name = [] then .error (p.path ++ ascii " has no name that can be stored.")
          else .ok { size := size, name := name }

/-! ## The ring -/

/-- A chunk before the place that is read. -/
def ReadChunk.isStale (index offset : Nat) (c : ReadChunk) : Bool :=
  !(index < c.index || (c.index = index && offset ≤ c.offset))

/-- `ReadAt`, once the chunks before the place are gone. -/
def readHead (ring : List ReadChunk) (index offset want : Nat) : Bytes :=
  match ring with
  | [] => []
  | head :: _ => if head.index ≠ index || head.offset ≠ offset then [] else head.data.take want

/-- Whether the next turn of `Pump` reads a chunk. -/
def FileSender.reads (s : FileSender) : Bool :=
  s.index < s.files.length && s.sent < (fileAt s.files s.index).size.toNat

namespace FileUpload

/-- `ReadAt`: what it reads. -/
def readAt (s : FileUpload) (index offset want : Nat) : Bytes :=
  readHead (s.ring.dropWhile (ReadChunk.isStale index offset)) index offset want

/-- `ReadAt`: what it leaves in the ring. -/
def dropStale (s : FileUpload) (index offset : Nat) : FileUpload :=
  { s with
    ring := s.ring.dropWhile (ReadChunk.isStale index offset)
    ringBytes := (s.ring.takeWhile (ReadChunk.isStale index offset)).foldl
      (fun n c => n - c.data.length) s.ringBytes }

def pumpable (s : FileUpload) : Nat :=
  if s.readerFailed then 1
  else
    let p := s.sender.progress
    let ready := (s.ring.filter fun c => !c.isStale p.fileIndex p.fileBytes).length
    if 0 < ready then ready
    else if s.readerEof then 1 else 0

/-! ## The sender and its hooks -/

/-- A hook of the sender. -/
def hook (s : FileUpload) : FileSenderEvent → FileUpload
  | .sent _ => s
  | .progress p => { s with pending := { s.pending with progress := some p } }
  | .finished state reason =>
      { s with readerStop := true, pending := { s.pending with finish := some (state, reason) } }

/-- The sender acted: its hooks, in order. -/
def senderActs (s : FileUpload) (r : FileSender × List FileSenderEvent) : FileUpload × List UploadEvent :=
  (r.2.foldl hook { s with sender := r.1 }, r.2.map .hook)

/-- A call goes on to `Flush`. -/
def flush (r : FileUpload × List UploadEvent) : FileUpload × List UploadEvent :=
  ({ r.1 with calls := r.1.calls ++ [.flushing] }, r.2)

/-- What the sender finds in a turn of `Pump`: `ReadAt` is the read callback. -/
def ringIo (s : FileUpload) (a : SendAnswers) : ChunkIo :=
  { read := s.readAt, takesChunk := a.takesChunk, takesDone := a.takesDone, takesCancel := a.takesCancel }

/-- One turn of `Pump`: also whether the next turn comes. -/
def turn (s : FileUpload) (a : SendAnswers) : FileUpload × List UploadEvent × Bool :=
  let (sender, out, ok) := s.sender.sendOneChunk (s.ringIo a)
  let s := if s.sender.reads then s.dropStale s.sender.index s.sender.sent else s
  let (s, out) := s.senderActs (sender, out)
  (s, out, ok)

/-- The loop of the sender's `Pump`. -/
def turns (s : FileUpload) : List SendAnswers → FileUpload × List UploadEvent
  | [] => (s, [])
  | a :: rest =>
      if s.sender.state ≠ .sending then (s, [])
      else
        let (s, out, ok) := s.turn a
        if !ok then (s, out)
        else
          let (s, more) := turns s rest
          (s, out ++ more)

/-- `Pump`, up to its `Flush`. -/
def pump (s : FileUpload) (maxChunks : Nat) (answers : Nat → SendAnswers) : FileUpload × List UploadEvent :=
  if s.sender.state = .sending then
    s.turns ((List.range (min maxChunks s.pumpable)).map answers)
  else (s, [])

/-! ## The thread and the calls -/

def startReader (s : FileUpload) (plan : List TransferFile) : FileUpload :=
  { s with
    ring := []
    ringBytes := 0
    readerStop := false
    readerEof := false
    readerFailed := false
    reader := some s.nextThread
    threads := (s.nextThread, { plan := plan }) :: s.threads
    nextThread := s.nextThread + 1 }

/-- The locked part of `StopReader`: the thread it waits for afterwards. -/
def stopReader (s : FileUpload) : FileUpload × Option Nat :=
  ({ s with readerStop := true, reader := none }, s.reader)

/-- The thread that is waited for has returned. -/
def joined (s : FileUpload) : Option Nat → Bool
  | none => true
  | some thread => (s.threads.lookup thread).isNone

/-- A thread returns. -/
def threadReturns (s : FileUpload) (thread : Nat) : FileUpload :=
  { s with threads := s.threads.filter fun p => p.1 ≠ thread }

/-- A thread goes on. -/
def threadGoesOn (s : FileUpload) (thread : Nat) (r : ReaderThread) : FileUpload :=
  { s with threads := s.threads.map fun p => if p.1 = thread then (thread, r) else p }

/-- A turn of `ReaderThread`: it puts its chunk into the ring when there is room, or it goes on to the
next read. `answer` is what the disk reads, if it does. -/
def readerTurn (s : FileUpload) (thread : Nat) (answer : Option Bytes) : FileUpload :=
  match s.threads.lookup thread with
  | none => s
  | some r =>
      match r.held with
      | some chunk =>
          if s.readerStop then s.threadReturns thread
          else if s.ringBytes < kMaxReadAheadBytes then
            { s with
              ringBytes := s.ringBytes + chunk.data.length
              ring := s.ring ++ [chunk] }.threadGoesOn thread
                { r with offset := r.offset + chunk.data.length, held := none }
          else s
      | none =>
          if r.plan.length ≤ r.index then { s with readerEof := true }.threadReturns thread
          else if (fileAt r.plan r.index).size.toNat ≤ r.offset then
            s.threadGoesOn thread { r with index := r.index + 1, offset := 0 }
          else
            let data := r.reads answer
            if data = [] then { s with readerFailed := true }.threadReturns thread
            else s.threadGoesOn thread { r with held := some ⟨r.index, r.offset, data⟩ }

/-- `Begin` up to where it stops the thread of the batch before. -/
def begin (s : FileUpload) : FileUpload × List UploadEvent :=
  if s.sender.busy then ({ s with error := ascii "A transfer is already running." }, [.began false])
  else ({ s with error := [], calls := s.calls ++ [.checked] }, [])

/-- The rest of `Begin`. -/
def beginOn (s : FileUpload) (paths : List PathFacts) (takes : Bool) : FileUpload × List UploadEvent :=
  match inspectFiles paths with
  | .error error => ({ s with error := error }, [.began false])
  | .ok files =>
      match paths.find? fun p => !p.opens with
      | some p => ({ s with error := p.path ++ ascii " could not be opened for reading." }, [.began false])
      | none =>
          let (sender, out, ok) := s.sender.offer s.nextBatchId files takes
          let (s, out) := s.senderActs (sender, out)
          if !ok then
            ({ s with error := ascii "The batch is more than one transfer can carry." }, out ++ [.began false])
          else ({ s with nextBatchId := s.nextBatchId + 1 }.startReader files, out ++ [.began true])

/-- The call `i` is over, or where it is next. -/
def callReturns (s : FileUpload) (i : Nat) : FileUpload := { s with calls := s.calls.eraseIdx i }
def callGoesOn (s : FileUpload) (i : Nat) (call : UploadCall) : FileUpload :=
  { s with calls := s.calls.set i call }

/-- The next locked section of the call `i`, or its callbacks. A call that waits for a thread waits
on. What `Begin` finds out about its files comes with the input. -/
def goOn (s : FileUpload) (i : Nat) (paths : List PathFacts) (takes : Bool) :
    FileUpload × List UploadEvent :=
  match s.calls[i]? with
  | none => (s, [])
  | some .checked =>
      let (s, joins) := s.stopReader
      (s.callGoesOn i (.beginning joins), [])
  | some (.beginning joins) =>
      if s.joined joins then (s.callReturns i).beginOn paths takes else (s, [])
  | some .flushing =>
      let ready := s.pending
      ({ s with pending := {} }.callGoesOn i (if ready.finish = none then .telling ready else .stopping ready), [])
  | some (.stopping ready) =>
      let (s, joins) := s.stopReader
      (s.callGoesOn i (.joining joins ready), [])
  | some (.joining joins ready) =>
      if s.joined joins then ({ s with ring := [], ringBytes := 0 }.callGoesOn i (.telling ready), [])
      else (s, [])
  | some (.telling ready) => (s.callReturns i, [.told ready])

end FileUpload

/-- The calls of other threads, the steps of those calls, and the turns of the reader. -/
inductive FileUploadInput where
  | begin
  | handleMessage (message : Bytes) (takesCancel : Bool)
  | pump (maxChunks : Nat) (answers : Nat → SendAnswers)
  | cancel (takesCancel : Bool)
  | linkLost
  | goOn (call : Nat) (paths : List PathFacts) (takes : Bool)
  | readerTurn (thread : Nat) (answer : Option Bytes)

/-- An upload with its callers and its reader. -/
def fileUpload : Machine FileUpload FileUploadInput UploadEvent where
  step s
    | .begin => s.begin
    | .handleMessage message takesCancel => FileUpload.flush (s.senderActs (s.sender.handleMessage message takesCancel))
    | .pump maxChunks answers => FileUpload.flush (s.pump maxChunks answers)
    | .cancel takesCancel => FileUpload.flush (s.senderActs (s.sender.cancel takesCancel))
    | .linkLost => FileUpload.flush (s.senderActs s.sender.linkLost)
    | .goOn call paths takes => s.goOn call paths takes
    | .readerTurn thread answer => (s.readerTurn thread answer, [])

/-!
## The ring is in step with the sender

While a batch is under way, the ring is at most one chunk that was sent, and then the chunks that the
sender needs next, up to where the reader stands. It is the distance from the start of the batch that
tells them apart.
-/

/-! ## Where the sender stands -/

def sizesOf (files : List TransferFile) : List Nat := files.map (·.size.toNat)

theorem getD_sizesOf (files : List TransferFile) (i : Nat) :
    (sizesOf files).getD i 0 = (fileAt files i).size.toNat := by
  unfold sizesOf fileAt
  rcases Nat.lt_or_ge i files.length with hlt | hge
  · simp [List.getD_eq_getElem?_getD, List.getElem?_eq_getElem hlt]
  · simp [List.getD_eq_getElem?_getD, List.getElem?_eq_none hge]

namespace FileSender

/-- How far the sender is from the start of the batch. -/
def stand (s : FileSender) : Nat := Extents.place (sizesOf s.files) s.index s.sent

/-- How much the next read asks for. -/
def wants (s : FileSender) : Nat :=
  let left := (fileAt s.files s.index).size.toNat - s.sent
  if left < kMaxFileChunkBytes then left else kMaxFileChunkBytes

/-- The sender is at a place of a batch that can be sent. -/
structure Placed (s : FileSender) : Prop where
  few : s.files.length ≤ kMaxTransferFiles
  index_le : s.index ≤ s.files.length
  sent_le : s.sent ≤ (fileAt s.files s.index).size.toNat

/-- The sender is in the same batch, `n` bytes on. -/
structure Moves (s s' : FileSender) (n : Nat) : Prop where
  state : s'.state = s.state
  files : s'.files = s.files
  batchId : s'.batchId = s.batchId
  placed : s'.Placed
  stand : s'.stand = s.stand + n

/-- What is sent or shown, but not the end of the batch. -/
def GoesOn (out : List FileSenderEvent) : Prop := ∀ state reason, .finished state reason ∉ out

variable {s s' : FileSender}

theorem Moves.refl (h : s.Placed) : Moves s s 0 := ⟨rfl, rfl, rfl, h, rfl⟩

theorem Moves.trans {s'' : FileSender} {n m : Nat} (h : Moves s s' n) (h' : Moves s' s'' m) :
    Moves s s'' (n + m) :=
  ⟨h'.state.trans h.state, h'.files.trans h.files, h'.batchId.trans h.batchId, h'.placed, by
    rw [h'.stand, h.stand, Nat.add_assoc]⟩

theorem GoesOn.append {xs ys : List FileSenderEvent} (hxs : GoesOn xs) (hys : GoesOn ys) :
    GoesOn (xs ++ ys) := by
  intro state reason hmem
  rcases List.mem_append.mp hmem with hmem | hmem
  · exact hxs _ _ hmem
  · exact hys _ _ hmem

theorem abort_state (s : FileSender) (reason : TransferReason) (takesCancel : Bool) :
    (s.abort reason takesCancel).1.state = .failed := by
  unfold abort finish
  rfl

/-- A file that went out whole is ended, when `send` takes that. -/
theorem finishFile_moves (h : s.Placed) (hindex : s.index < s.files.length)
    (hall : s.sent = (fileAt s.files s.index).size.toNat) (io : ChunkIo) :
    Moves s (s.finishFile io).1 0 ∧ GoesOn (s.finishFile io).2.1 := by
  unfold finishFile
  cases hbuild : buildFileDone kMaxRecordSize ⟨s.batchId, UInt16.ofNat s.index, s.crc.value⟩ with
  | none =>
    -- the message always fits
    unfold buildFileDone writeCommon at hbuild
    simp [putU32, putU16, kMaxRecordSize, kCommonHeaderSize] at hbuild
  | some message =>
    cases io.takesDone with
    | false => exact ⟨.refl h, by simp [GoesOn]⟩
    | true =>
      refine ⟨⟨rfl, rfl, rfl, ⟨h.few, hindex, Nat.zero_le _⟩, ?_⟩, by simp [GoesOn]⟩
      show Extents.place (sizesOf s.files) (s.index + 1) 0 = Extents.place (sizesOf s.files) s.index s.sent + 0
      rw [hall, ← getD_sizesOf, Extents.place_end]
      rfl

theorem buildFileChunk_some (batchId : UInt32) {index : Nat} (offset : UInt64) {data : Bytes}
    (hdata : data ≠ []) (hlen : data.length ≤ kMaxFileChunkBytes) (hindex : index < kMaxTransferFiles) :
    ∃ message, buildFileChunk kMaxRecordSize ⟨batchId, UInt16.ofNat index, offset, data⟩ = some message := by
  have hmax : kMaxTransferFiles = 32 := rfl
  have hsize : kMaxFileChunkBytes = 16362 := rfl
  have hrecord : kMaxRecordSize = 16384 := rfl
  have hi : (UInt16.ofNat index).toNat = index := by
    rw [UInt16.toNat_ofNat', Nat.mod_eq_of_lt (by omega)]
  unfold buildFileChunk
  dsimp only
  rw [if_neg (by simp only [not_or, not_lt]; exact ⟨hdata, hlen⟩), if_neg (by omega)]
  unfold writeCommon
  rw [if_neg]
  · exact ⟨_, rfl⟩
  · simp only [List.length_append, length_putU32, length_putU16, length_putU64, kCommonHeaderSize]
    omega

/-- The sender when `data` went out. -/
def took (s : FileSender) (data : Bytes) : FileSender :=
  { s with
    crc := s.crc.update data
    sent := s.sent + data.length
    batchSent := s.batchSent + data.length }

/-- One turn of `Pump`: the sender goes on by what it read, or it waits for `send`, or there was nothing
to read and the batch is over. -/
theorem sendOneChunk_moves (h : s.Placed) (io : ChunkIo)
    (hfit : (io.read s.index s.sent s.wants).length ≤ s.wants) :
    (∃ n, Moves s (s.sendOneChunk io).1 n ∧ GoesOn (s.sendOneChunk io).2.1 ∧
      (n = 0 ∨ s.reads = true ∧ n = (io.read s.index s.sent s.wants).length)) ∨
    s.reads = true ∧ io.read s.index s.sent s.wants = [] ∧ (s.sendOneChunk io).1.state = .failed := by
  unfold sendOneChunk
  split
  · exact .inl ⟨0, .refl h, by simp [GoesOn], .inl rfl⟩
  · next hindex =>
    have hindex := Nat.not_le.mp hindex
    dsimp only
    split
    · next hall =>
      rcases finishFile_moves h hindex (le_antisymm h.sent_le hall) io with ⟨hmoves, hgoes⟩
      exact .inl ⟨0, hmoves, hgoes, .inl rfl⟩
    · next hmore =>
      have hreads : s.reads = true := by
        unfold reads
        simp only [hindex, decide_true, Bool.true_and, decide_eq_true_eq]
        omega
      change (io.read s.index s.sent _).length ≤ _ at hfit
      unfold wants at hfit ⊢
      dsimp only at hfit ⊢
      generalize hwant : (if (fileAt s.files s.index).size.toNat - s.sent < kMaxFileChunkBytes then
        (fileAt s.files s.index).size.toNat - s.sent else kMaxFileChunkBytes) = want at *
      have hle : want ≤ kMaxFileChunkBytes ∧ want ≤ (fileAt s.files s.index).size.toNat - s.sent := by
        rw [← hwant]
        split <;> omega
      generalize io.read s.index s.sent want = data at *
      by_cases hdata : data = []
      · right
        rw [if_pos (.inl hdata)]
        exact ⟨hreads, hdata, abort_state s .readFailed io.takesCancel⟩
      · left
        rw [if_neg (by simp only [not_or, not_lt]; exact ⟨hdata, hfit⟩)]
        rcases buildFileChunk_some s.batchId (UInt64.ofNat s.sent) hdata
          (hfit.trans hle.1) (hindex.trans_le h.few) with ⟨message, hbuild⟩
        rw [hbuild]
        dsimp only
        split
        · exact ⟨0, .refl h, by simp [GoesOn], .inl rfl⟩
        · have hmoves : Moves s (s.took data) data.length := by
            refine ⟨rfl, rfl, rfl, ⟨h.few, h.index_le, ?_⟩, ?_⟩
            · show s.sent + data.length ≤ (fileAt s.files s.index).size.toNat
              omega
            · unfold stand Extents.place took
              dsimp only
              omega
          have hgoes : GoesOn (.sent message :: (s.took data).report) := by simp [GoesOn, report]
          split
          · next hall =>
            -- the chunk was the last of its file
            rcases finishFile_moves hmoves.placed hindex (le_antisymm hmoves.placed.sent_le hall) io with
              ⟨hends, hgoes'⟩
            exact ⟨_, hmoves.trans hends, hgoes.append hgoes', .inr ⟨hreads, rfl⟩⟩
          · exact ⟨_, hmoves, hgoes, .inr ⟨hreads, rfl⟩⟩

end FileSender

/-! ## The ring -/

namespace ReadChunk

/-- How far a chunk is from the start of the batch, and how long it is. -/
def first (files : List TransferFile) (c : ReadChunk) : Nat := Extents.place (sizesOf files) c.index c.offset
def size (c : ReadChunk) : Nat := c.data.length

/-- A chunk is a piece of its file. -/
structure Fits (files : List TransferFile) (c : ReadChunk) : Prop where
  pos : 0 < c.size
  small : c.size ≤ kMaxFileChunkBytes
  inside : c.offset + c.size ≤ (fileAt files c.index).size.toNat

theorem Fits.isStale {c : ReadChunk} {s : FileSender} (h : c.Fits s.files) (hs : s.Placed) :
    c.isStale s.index s.sent = decide (c.first s.files < s.stand) := by
  have hbefore : c.first s.files < s.stand ↔ c.index < s.index ∨ c.index = s.index ∧ c.offset < s.sent := by
    refine Extents.place_lt_iff ?_ ?_
    · have hinside := h.inside
      have hpos := h.pos
      rw [getD_sizesOf]
      omega
    · rw [getD_sizesOf]
      exact hs.sent_le
  rw [Bool.eq_iff_iff, decide_eq_true_iff, hbefore]
  simp only [ReadChunk.isStale, Bool.not_eq_true', Bool.or_eq_false_iff, Bool.and_eq_false_iff,
    decide_eq_false_iff_not]
  omega

/-- The chunk that starts where the sender stands is the one that is read next. -/
theorem Fits.next {c : ReadChunk} {s : FileSender} (h : c.Fits s.files) (hreads : s.reads = true)
    (hfirst : c.first s.files = s.stand) : c.index = s.index ∧ c.offset = s.sent ∧ c.size ≤ s.wants := by
  unfold FileSender.reads at hreads
  rw [Bool.and_eq_true, decide_eq_true_iff, decide_eq_true_iff] at hreads
  have hinside := h.inside
  have hpos := h.pos
  have hsmall := h.small
  have hoffset : c.offset < (sizesOf s.files).getD c.index 0 := by
    rw [getD_sizesOf]
    omega
  have hsent : s.sent < (sizesOf s.files).getD s.index 0 := by
    rw [getD_sizesOf]
    exact hreads.2
  have hplace := Extents.place_inj hoffset hsent hfirst
  refine ⟨hplace.1, hplace.2, ?_⟩
  rw [hplace.1, hplace.2] at hinside
  unfold FileSender.wants
  dsimp only
  split <;> omega

end ReadChunk

/-- The reader is at `hi`, and the chunk it holds is the next one. -/
structure ReaderThread.At (genuine : ReadChunk → Prop) (files : List TransferFile) (r : ReaderThread) (hi : Nat) :
    Prop where
  plan : sizesOf r.plan = sizesOf files
  offset_le : r.offset ≤ (fileAt files r.index).size.toNat
  place : Extents.place (sizesOf files) r.index r.offset = hi
  held : ∀ c, r.held = some c → c.index = r.index ∧ c.offset = r.offset ∧ c.Fits files ∧ genuine c

namespace FileUpload

variable (genuine : UInt32 → ReadChunk → Prop)

/-- What comes after the ring: the reader, or its end, or its failure. -/
def SourceAt (s : FileUpload) (hi : Nat) : Prop :=
  (∃ thread r, s.reader = some thread ∧ s.threads = [(thread, r)] ∧ s.readerEof = false ∧
    s.readerFailed = false ∧ r.At (genuine s.sender.batchId) s.sender.files hi) ∨
  s.threads = [] ∧ s.readerFailed = true ∨
  s.threads = [] ∧ s.readerFailed = false ∧ s.readerEof = true ∧ hi = (sizesOf s.sender.files).sum

/-- The ring while a batch is under way: `old` was sent, `fresh` comes next. -/
structure Feeds (s : FileUpload) (old fresh : List ReadChunk) (hi : Nat) : Prop where
  running : s.readerStop = false
  placed : s.sender.Placed
  ring : s.ring = old ++ fresh
  old_le : old.length ≤ 1
  fits : ∀ c ∈ old ++ fresh, c.Fits s.sender.files ∧ genuine s.sender.batchId c
  sent : ∀ c ∈ old, c.first s.sender.files < s.sender.stand
  next : Extents.Follow (ReadChunk.first s.sender.files) ReadChunk.size s.sender.stand fresh hi
  source : s.SourceAt genuine hi

/-- The sender has acted, and nothing else. -/
structure SenderOnly (s s' : FileUpload) : Prop where
  calls : s'.calls = s.calls
  reader : s'.reader = s.reader
  threads : s'.threads = s.threads
  eof : s'.readerEof = s.readerEof
  failed : s'.readerFailed = s.readerFailed
  nextBatchId : s'.nextBatchId = s.nextBatchId

theorem SenderOnly.hook (s : FileUpload) (e : FileSenderEvent) : SenderOnly s (s.hook e) := by
  cases e <;> exact ⟨rfl, rfl, rfl, rfl, rfl, rfl⟩

variable {genuine} {s : FileUpload} {old fresh : List ReadChunk} {hi : Nat}

/-- The ring without what was sent. -/
theorem Feeds.dropStale (h : Feeds genuine s old fresh hi) :
    s.ring.dropWhile (ReadChunk.isStale s.sender.index s.sender.sent) = fresh ∧
      s.ring.takeWhile (ReadChunk.isStale s.sender.index s.sender.sent) = old ∧
      s.ring.filter (fun c => !c.isStale s.sender.index s.sender.sent) = fresh := by
  rw [h.ring]
  refine Extents.dropWhile_before ?_ ?_ h.next
  · intro c hmem
    rw [(h.fits c (by simp [hmem])).1.isStale h.placed]
    exact decide_eq_true (h.sent c hmem)
  · intro c hmem
    exact (h.fits c (by simp [hmem])).1.isStale h.placed

/-! ## Turns of the sender -/

theorem SenderOnly.trans {s s' s'' : FileUpload} (h : SenderOnly s s') (h' : SenderOnly s' s'') : SenderOnly s s'' :=
  ⟨h'.calls.trans h.calls, h'.reader.trans h.reader, h'.threads.trans h.threads, h'.eof.trans h.eof,
    h'.failed.trans h.failed, h'.nextBatchId.trans h.nextBatchId⟩

theorem foldl_hook (s : FileUpload) (es : List FileSenderEvent) :
    SenderOnly s (es.foldl hook s) ∧ (es.foldl hook s).sender = s.sender ∧
      (es.foldl hook s).ring = s.ring ∧ (es.foldl hook s).ringBytes = s.ringBytes := by
  induction es generalizing s with
  | nil => exact ⟨⟨rfl, rfl, rfl, rfl, rfl, rfl⟩, rfl, rfl, rfl⟩
  | cons e es ih =>
    have hone : (s.hook e).sender = s.sender ∧ (s.hook e).ring = s.ring ∧ (s.hook e).ringBytes = s.ringBytes := by
      cases e <;> exact ⟨rfl, rfl, rfl⟩
    rcases ih (s.hook e) with ⟨hframe, hsender, hring, hbytes⟩
    exact ⟨(SenderOnly.hook s e).trans hframe, hsender.trans hone.1, hring.trans hone.2.1, hbytes.trans hone.2.2⟩

/-- What does not end the batch tells nobody that it ended. -/
theorem foldl_hook_goesOn (s : FileUpload) {es : List FileSenderEvent} (h : FileSender.GoesOn es) :
    (es.foldl hook s).readerStop = s.readerStop ∧ (es.foldl hook s).pending.finish = s.pending.finish := by
  induction es generalizing s with
  | nil => exact ⟨rfl, rfl⟩
  | cons e es ih =>
    have hrest : FileSender.GoesOn es := fun state reason hmem => h state reason (by simp [hmem])
    rcases ih (s.hook e) hrest with ⟨hstop, hfinish⟩
    cases e with
    | finished state reason => exact absurd (List.mem_cons_self ..) (h state reason)
    | sent message => exact ⟨hstop, hfinish⟩
    | progress p => exact ⟨hstop, hfinish⟩

theorem senderActs_frame (s : FileUpload) (r : FileSender × List FileSenderEvent) :
    SenderOnly s (s.senderActs r).1 ∧ (s.senderActs r).1.sender = r.1 ∧ (s.senderActs r).1.ring = s.ring ∧
      (s.senderActs r).1.ringBytes = s.ringBytes := by
  rcases foldl_hook { s with sender := r.1 } r.2 with ⟨hframe, hsender, hring, hbytes⟩
  exact ⟨⟨hframe.1, hframe.2, hframe.3, hframe.4, hframe.5, hframe.6⟩, hsender, hring, hbytes⟩

/-- What the sender does in one turn. -/
def sends (s : FileUpload) (a : SendAnswers) : FileSender × List FileSenderEvent × Bool :=
  s.sender.sendOneChunk (s.ringIo a)

theorem turn_eq (s : FileUpload) (a : SendAnswers) :
    s.turn a =
      (((if s.sender.reads then s.dropStale s.sender.index s.sender.sent else s).senderActs
        ((s.sends a).1, (s.sends a).2.1)).1, (s.sends a).2.1.map .hook, (s.sends a).2.2) :=
  rfl

theorem turn_frame (s : FileUpload) (a : SendAnswers) :
    SenderOnly s (s.turn a).1 ∧ (s.turn a).1.sender = (s.sends a).1 := by
  rw [turn_eq]
  have hdrop : SenderOnly s (if s.sender.reads then s.dropStale s.sender.index s.sender.sent else s) := by
    split <;> exact ⟨rfl, rfl, rfl, rfl, rfl, rfl⟩
  have hacts := senderActs_frame (if s.sender.reads then s.dropStale s.sender.index s.sender.sent else s)
    ((s.sends a).1, (s.sends a).2.1)
  exact ⟨hdrop.trans hacts.1, hacts.2.1⟩

/-- What the turn leaves in the ring. -/
theorem Feeds.ring_turn (h : Feeds genuine s old fresh hi) (a : SendAnswers) :
    (s.turn a).1.ring = if s.sender.reads then fresh else old ++ fresh := by
  rw [turn_eq]
  dsimp only
  rw [(senderActs_frame _ _).2.2.1]
  split
  · exact h.dropStale.1
  · exact h.ring

/-- What is read next. -/
theorem Feeds.readAt (h : Feeds genuine s old fresh hi) (hreads : s.sender.reads = true) :
    s.readAt s.sender.index s.sender.sent s.sender.wants = (fresh.head?.map ReadChunk.data).getD [] := by
  unfold FileUpload.readAt
  rw [h.dropStale.1]
  cases fresh with
  | nil => rfl
  | cons c cs =>
    have hfits := (h.fits c (by simp)).1
    rcases hfits.next hreads h.next.1 with ⟨hindex, hoffset, hsize⟩
    unfold readHead
    simp only [hindex, hoffset]
    simpa using show c.data.length ≤ s.sender.wants from hsize

theorem length_readAt_le (s : FileUpload) (index offset want : Nat) : (s.readAt index offset want).length ≤ want := by
  unfold FileUpload.readAt readHead
  split
  · exact Nat.zero_le _
  · split
    · exact Nat.zero_le _
    · exact List.length_take_le _ _

/-- The reader is where it was, also for the sender some bytes on. -/
theorem SourceAt.congr {s' : FileUpload} (h : s.SourceAt genuine hi) (hframe : SenderOnly s s')
    (hfiles : s'.sender.files = s.sender.files) (hbatch : s'.sender.batchId = s.sender.batchId) :
    s'.SourceAt genuine hi := by
  unfold SourceAt
  rw [hframe.reader, hframe.threads, hframe.eof, hframe.failed, hfiles, hbatch]
  exact h

/-- A turn after which the batch goes on. -/
structure Turns (genuine : UInt32 → ReadChunk → Prop) (s : FileUpload) (a : SendAnswers) (fresh : List ReadChunk)
    (hi n : Nat) : Prop where
  feeds : ∃ old' fresh', Feeds genuine (s.turn a).1 old' fresh' hi ∧ fresh.length ≤ fresh'.length + 1
  moves : FileSender.Moves s.sender (s.turn a).1.sender n
  goes : FileSender.GoesOn (s.sends a).2.1

/-- A turn passes the first of the chunks, or none, unless there is nothing to read. -/
theorem Feeds.turn (h : Feeds genuine s old fresh hi) (a : SendAnswers) :
    (∃ n, Turns genuine s a fresh hi n) ∨
    fresh = [] ∧ s.sender.reads = true ∧ (s.turn a).1.sender.state = .failed ∧ (s.turn a).1.ring = [] := by
  rcases turn_frame s a with ⟨hframe, hsender⟩
  have hring := h.ring_turn a
  have hmoves := FileSender.sendOneChunk_moves h.placed (s.ringIo a) (s.length_readAt_le _ _ _)
  change (∃ n, FileSender.Moves s.sender (s.sends a).1 n ∧ FileSender.GoesOn (s.sends a).2.1 ∧
    (n = 0 ∨ s.sender.reads = true ∧ n = (s.readAt s.sender.index s.sender.sent s.sender.wants).length)) ∨
    s.sender.reads = true ∧ s.readAt s.sender.index s.sender.sent s.sender.wants = [] ∧
      (s.sends a).1.state = .failed at hmoves
  rw [← hsender] at hmoves
  rcases hmoves with ⟨n, hmoves, hgoes, hn⟩ | ⟨hreads, hnone, hfailed⟩
  · left
    have hstop : (s.turn a).1.readerStop = false := by
      rw [turn_eq]
      refine (foldl_hook_goesOn _ hgoes).1.trans ?_
      have hrunning := h.running
      split <;> exact hrunning
    have hsource : (s.turn a).1.SourceAt genuine hi := h.source.congr hframe hmoves.files hmoves.batchId
    -- the ring when no chunk went out
    have hwaits : n = 0 → ∃ n, Turns genuine s a fresh hi n := by
      rintro rfl
      have hstand : (s.turn a).1.sender.stand = s.sender.stand := hmoves.stand
      refine ⟨0, ⟨if s.sender.reads then [] else old, fresh, ?_, Nat.le_succ _⟩, hmoves, hgoes⟩
      refine ⟨hstop, hmoves.placed, ?_, ?_, ?_, ?_, ?_, hsource⟩
      · rw [hring]
        split <;> simp
      · split
        · simp
        · exact h.old_le
      · rw [hmoves.files, hmoves.batchId]
        intro c hmem
        refine h.fits c ?_
        split at hmem
        · exact List.mem_append_right _ hmem
        · exact hmem
      · rw [hmoves.files, hstand]
        intro c hmem
        split at hmem
        · cases hmem
        · exact h.sent c hmem
      · rw [hmoves.files, hstand]
        exact h.next
    rcases hn with hn | ⟨hreads, hn⟩
    · exact hwaits hn
    · rw [h.readAt hreads] at hn
      cases fresh with
      | nil => exact hwaits hn
      | cons c cs =>
        have hn : n = c.size := hn
        have hfits := h.fits c (by simp)
        refine ⟨n, ⟨[c], cs, ?_, by simp⟩, hmoves, hgoes⟩
        refine ⟨hstop, hmoves.placed, ?_, le_rfl, ?_, ?_, ?_, hsource⟩
        · rw [hring, if_pos hreads]
          rfl
        · rw [hmoves.files, hmoves.batchId]
          intro c' hmem
          exact h.fits c' (by simp at hmem ⊢; tauto)
        · intro c' hmem
          obtain rfl := List.mem_singleton.mp hmem
          have hpos := hfits.1.pos
          rw [hmoves.files, hmoves.stand, h.next.1]
          omega
        · rw [hmoves.files, hmoves.stand, hn]
          exact h.next.2.2
  · right
    rw [h.readAt hreads] at hnone
    cases fresh with
    | nil => exact ⟨rfl, hreads, hfailed, by rw [hring, if_pos hreads]⟩
    | cons c cs =>
      have hpos : 0 < c.data.length := (h.fits c (by simp)).1.pos
      rw [show c.data = [] from hnone] at hpos
      cases hpos

/-- A sender that reads is not at the end of its batch. -/
theorem stand_lt_of_reads {s : FileSender} (hreads : s.reads = true) : s.stand < (sizesOf s.files).sum := by
  unfold FileSender.reads at hreads
  rw [Bool.and_eq_true, decide_eq_true_iff, decide_eq_true_iff] at hreads
  have hend := Extents.start_le_sum (sizesOf s.files) (s.index + 1)
  rw [Extents.start_succ, getD_sizesOf] at hend
  unfold FileSender.stand Extents.place
  omega

/-- The sender goes on in its batch, and nobody is told that it ended. -/
structure Continues (s : FileUpload) (r : FileUpload × List UploadEvent) : Prop where
  moves : ∃ n, FileSender.Moves s.sender r.1.sender n
  finish : r.1.pending.finish = s.pending.finish
  events : ∀ e ∈ r.2, ∀ state reason, e ≠ .hook (.finished state reason)

theorem turn_continues {a : SendAnswers} {n : Nat} (hmoves : FileSender.Moves s.sender (s.turn a).1.sender n)
    (hgoes : FileSender.GoesOn (s.sends a).2.1) : Continues s ((s.turn a).1, (s.turn a).2.1) := by
  refine ⟨⟨n, hmoves⟩, ?_, ?_⟩
  · rw [turn_eq]
    refine (foldl_hook_goesOn _ hgoes).2.trans ?_
    split <;> rfl
  · intro e hmem state reason heq
    rw [turn_eq] at hmem
    rcases List.mem_map.mp hmem with ⟨e', hmem', rfl⟩
    cases heq
    exact hgoes state reason hmem'

theorem Continues.trans {r r' : FileUpload × List UploadEvent} (h : Continues s r) (h' : Continues r.1 r') :
    Continues s (r'.1, r.2 ++ r'.2) := by
  rcases h.moves with ⟨n, hmoves⟩
  rcases h'.moves with ⟨m, hmoves'⟩
  refine ⟨⟨n + m, hmoves.trans hmoves'⟩, h'.finish.trans h.finish, ?_⟩
  intro e hmem
  rcases List.mem_append.mp hmem with hmem | hmem
  · exact h.events e hmem
  · exact h'.events e hmem

/-- The turns of a `Pump` that are no more than the ring can serve: nothing is read in vain unless the
disk failed. -/
theorem Feeds.turns (h : Feeds genuine s old fresh hi) (hsending : s.sender.state = .sending)
    (as : List SendAnswers)
    (hroom : as.length ≤ fresh.length ∨ s.readerEof = true ∨ s.readerFailed = true) :
    SenderOnly s (s.turns as).1 ∧
      ((∃ old' fresh', Feeds genuine (s.turns as).1 old' fresh' hi ∧ Continues s (s.turns as)) ∨
        s.readerFailed = true ∧ (s.turns as).1.sender.state = .failed ∧ (s.turns as).1.ring = []) := by
  have hstays : SenderOnly s s ∧ Continues s (s, []) :=
    ⟨⟨rfl, rfl, rfl, rfl, rfl, rfl⟩, ⟨0, .refl h.placed⟩, rfl, by simp⟩
  induction as generalizing s old fresh with
  | nil => exact ⟨hstays.1, .inl ⟨old, fresh, h, hstays.2⟩⟩
  | cons a as ih =>
    unfold FileUpload.turns
    rw [if_neg (not_not.mpr hsending)]
    have hframe := (turn_frame s a).1
    rcases h.turn a with ⟨n, hturn⟩ | ⟨hempty, hreads, hfailed, hnone⟩
    · rcases hturn.feeds with ⟨old', fresh', hfeeds, hle⟩
      have hmoves := hturn.moves
      have hcontinues := turn_continues hmoves hturn.goes
      cases hok : (s.turn a).2.2 with
      | false =>
        simp only [hok, Bool.not_false, if_true]
        exact ⟨hframe, .inl ⟨old', fresh', hfeeds, hcontinues⟩⟩
      | true =>
        simp only [hok, Bool.not_true, Bool.false_eq_true, if_false]
        have hroom' : as.length ≤ fresh'.length ∨ (s.turn a).1.readerEof = true ∨
            (s.turn a).1.readerFailed = true := by
          rw [hframe.eof, hframe.failed]
          rcases hroom with hroom | hroom
          · left
            rw [List.length_cons] at hroom
            omega
          · exact .inr hroom
        rcases ih hfeeds (hmoves.state.trans hsending) hroom'
          ⟨⟨rfl, rfl, rfl, rfl, rfl, rfl⟩, ⟨0, .refl hfeeds.placed⟩, rfl, by simp⟩ with ⟨hrest, hcase⟩
        refine ⟨hframe.trans hrest, ?_⟩
        rcases hcase with ⟨old'', fresh'', hfeeds', hcontinues'⟩ | ⟨hfailed, hstate⟩
        · exact .inl ⟨old'', fresh'', hfeeds', hcontinues.trans hcontinues'⟩
        · exact .inr ⟨hframe.failed ▸ hfailed, hstate⟩
    · -- nothing is left in the ring, and yet the sender reads
      have hends : s.readerFailed = true := by
        subst hempty
        rcases hroom with hroom | heof | hfailed
        · simp at hroom
        · have hnext : s.sender.stand = hi := h.next
          have hlt := stand_lt_of_reads hreads
          rcases h.source with ⟨_, _, -, -, hnot, -⟩ | ⟨-, hfailed⟩ | ⟨-, -, -, hend⟩
          · rw [heof] at hnot
            cases hnot
          · exact hfailed
          · omega
        · exact hfailed
      cases hok : (s.turn a).2.2 with
      | false =>
        simp only [hok, Bool.not_false, if_true]
        exact ⟨hframe, .inr ⟨hends, hfailed, hnone⟩⟩
      | true =>
        simp only [hok, Bool.not_true, Bool.false_eq_true, if_false]
        have hover : (s.turn a).1.turns as = ((s.turn a).1, []) := by
          cases as with
          | nil => rfl
          | cons a' as =>
            unfold FileUpload.turns
            exact if_pos (by simp [hfailed])
        rw [hover]
        exact ⟨hframe, .inr ⟨hends, hfailed, hnone⟩⟩

/-- `Pumpable`, when the ring feeds the sender. -/
theorem Feeds.pumpable_eq (h : Feeds genuine s old fresh hi) :
    s.pumpable =
      if s.readerFailed then 1 else if 0 < fresh.length then fresh.length else if s.readerEof then 1 else 0 := by
  have hprogress : s.sender.progress.fileIndex = s.sender.index ∧ s.sender.progress.fileBytes = s.sender.sent := by
    unfold FileSender.progress
    dsimp only
    split <;> exact ⟨rfl, rfl⟩
  unfold pumpable
  dsimp only
  rw [hprogress.1, hprogress.2, h.dropStale.2.2]

/-- `Pump` asks for no more than there is. -/
theorem Feeds.pumpable_le (h : Feeds genuine s old fresh hi) :
    s.pumpable ≤ fresh.length ∨ s.readerEof = true ∨ s.readerFailed = true := by
  rw [h.pumpable_eq]
  split
  · next hfailed => exact .inr (.inr hfailed)
  · split
    · exact .inl le_rfl
    · split
      · next heof => exact .inr (.inl heof)
      · exact .inl (Nat.zero_le _)

theorem Feeds.pump (h : Feeds genuine s old fresh hi) (maxChunks : Nat) (answers : Nat → SendAnswers) :
    SenderOnly s (s.pump maxChunks answers).1 ∧
      ((∃ old' fresh', Feeds genuine (s.pump maxChunks answers).1 old' fresh' hi ∧
          Continues s (s.pump maxChunks answers)) ∨
        s.readerFailed = true ∧ (s.pump maxChunks answers).1.sender.state = .failed ∧
          (s.pump maxChunks answers).1.ring = []) := by
  unfold FileUpload.pump
  split
  · next hsending =>
    refine h.turns hsending _ ?_
    rw [List.length_map, List.length_range]
    exact h.pumpable_le.imp_left (le_trans (Nat.min_le_right _ _))
  · exact ⟨⟨rfl, rfl, rfl, rfl, rfl, rfl⟩, .inl ⟨old, fresh, h, ⟨0, .refl h.placed⟩, rfl, by simp⟩⟩

/-! ## Turns of the reader -/

theorem threadGoesOn_one {thread : Nat} {r : ReaderThread} (h : s.threads = [(thread, r)]) (r' : ReaderThread) :
    (s.threadGoesOn thread r').threads = [(thread, r')] := by
  simp [threadGoesOn, h]

theorem threadReturns_one {thread : Nat} {r : ReaderThread} (h : s.threads = [(thread, r)]) :
    (s.threadReturns thread).threads = [] := by
  simp [threadReturns, h]

/-- A turn of the reader goes on in the files of the batch. -/
theorem Feeds.readerTurn (h : Feeds genuine s old fresh hi) (thread : Nat) (answer : Option Bytes)
    (hread : ∀ r, s.threads.lookup thread = some r →
      genuine s.sender.batchId ⟨r.index, r.offset, r.reads answer⟩) :
    ∃ fresh' hi', Feeds genuine (s.readerTurn thread answer) old fresh' hi' := by
  unfold FileUpload.readerTurn
  split
  · exact ⟨fresh, hi, h⟩
  · next r hlookup =>
    -- it is the one thread that runs
    rcases h.source with ⟨thread', r', hreader, hthreads, heof, hfailed, hat⟩ | ⟨hnone, -⟩ | ⟨hnone, -⟩
    · obtain ⟨rfl, rfl⟩ : thread = thread' ∧ r = r' := by
        rw [hthreads] at hlookup
        simp only [List.lookup_cons, List.lookup_nil] at hlookup
        split at hlookup
        · next heq => exact ⟨by simpa using heq, by simpa using hlookup.symm⟩
        · cases hlookup
      split
      · next chunk hheld =>
        rw [if_neg (by simp [h.running])]
        split
        · -- the chunk goes into the ring
          rcases hat.held chunk hheld with ⟨hindex, hoffset, hfits, hgenuine⟩
          have hfirst : chunk.first s.sender.files = hi := by
            unfold ReadChunk.first
            rw [hindex, hoffset]
            exact hat.place
          refine ⟨fresh ++ [chunk], hi + chunk.size, h.running, h.placed, ?_, h.old_le, ?_, h.sent,
            h.next.snoc hfirst hfits.pos, ?_⟩
          · show s.ring ++ [chunk] = old ++ (fresh ++ [chunk])
            rw [h.ring, List.append_assoc]
          · intro c hmem
            rw [← List.append_assoc] at hmem
            rcases List.mem_append.mp hmem with hmem | hmem
            · exact h.fits c hmem
            · obtain rfl := List.mem_singleton.mp hmem
              exact ⟨hfits, hgenuine⟩
          · refine .inl ⟨thread, { r with offset := r.offset + chunk.data.length, held := none }, hreader,
              threadGoesOn_one hthreads _, heof, hfailed, hat.plan, ?_, ?_, by simp⟩
            · have hinside := hfits.inside
              rw [hindex, hoffset] at hinside
              exact hinside
            · have hplace := hat.place
              show Extents.place (sizesOf s.sender.files) r.index (r.offset + chunk.data.length) = hi + chunk.data.length
              unfold Extents.place at hplace ⊢
              omega
        · exact ⟨fresh, hi, h⟩
      · next hheld =>
        have hsize : (fileAt r.plan r.index).size.toNat = (fileAt s.sender.files r.index).size.toNat := by
          rw [← getD_sizesOf, hat.plan, getD_sizesOf]
        have hlength : r.plan.length = s.sender.files.length := by
          have hlengths := congrArg List.length hat.plan
          simpa [sizesOf] using hlengths
        split
        · -- all files are read
          next hend =>
          refine ⟨fresh, hi, h.running, h.placed, h.ring, h.old_le, h.fits, h.sent, h.next, ?_⟩
          refine .inr (.inr ⟨threadReturns_one hthreads, hfailed, rfl, ?_⟩)
          rw [hlength] at hend
          have hnil : (fileAt s.sender.files r.index).size.toNat = 0 := by
            unfold fileAt
            rw [List.getD_eq_default _ _ hend]
            rfl
          have hle := hat.offset_le
          have hplace := hat.place
          unfold Extents.place at hplace
          rw [Extents.start_of_length_le _ (by simpa [sizesOf] using hend)] at hplace
          show hi = (sizesOf s.sender.files).sum
          omega
        · split
          · next hdone =>
            refine ⟨fresh, hi, h.running, h.placed, h.ring, h.old_le, h.fits, h.sent, h.next, ?_⟩
            refine .inl ⟨thread, { r with index := r.index + 1, offset := 0 }, hreader,
              threadGoesOn_one hthreads _, heof, hfailed, hat.plan, Nat.zero_le _, ?_, by simp [hheld]⟩
            · have hoffset : r.offset = (fileAt s.sender.files r.index).size.toNat :=
                le_antisymm hat.offset_le (hsize ▸ hdone)
              have hplace := hat.place
              rw [hoffset, ← getD_sizesOf, Extents.place_end] at hplace
              exact hplace
          · next hmore =>
            dsimp only
            split
            · refine ⟨fresh, hi, h.running, h.placed, h.ring, h.old_le, h.fits, h.sent, h.next, ?_⟩
              exact .inr (.inl ⟨threadReturns_one hthreads, rfl⟩)
            · next hdata =>
              have hbound : (r.reads answer).length ≤ kMaxFileChunkBytes ∧
                  r.offset + (r.reads answer).length ≤ (fileAt s.sender.files r.index).size.toNat := by
                have htake : (r.reads answer).length ≤ _ := List.length_take_le _ _
                rw [hsize] at hmore htake
                split at htake <;> omega
              refine ⟨fresh, hi, h.running, h.placed, h.ring, h.old_le, h.fits, h.sent, h.next, ?_⟩
              refine .inl ⟨thread, { r with held := some ⟨r.index, r.offset, r.reads answer⟩ }, hreader,
                threadGoesOn_one hthreads _, heof, hfailed, hat.plan, hat.offset_le, hat.place, ?_⟩
              rintro c hc
              obtain rfl := Option.some.inj hc
              refine ⟨rfl, rfl, ⟨List.length_pos_of_ne_nil hdata, hbound.1, hbound.2⟩, ?_⟩
              exact hread r hlookup
    · rw [hnone] at hlookup
      cases hlookup
    · rw [hnone] at hlookup
      cases hlookup

end FileUpload

end Deskhub
