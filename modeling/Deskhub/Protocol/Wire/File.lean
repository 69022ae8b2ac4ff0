import Deskhub.Protocol.Wire.Header

/-!
# File transfer messages

The builders and parsers of the file channel, and that a message reads back as
it was built.
-/

namespace Deskhub

def kMaxTransferFiles : Nat := 32
def kMaxTransferNameBytes : Nat := 255
def kMaxTransferFileBytes : UInt64 := (8 : UInt64) <<< 30
def kMaxTransferBatchBytes : UInt64 := (32 : UInt64) <<< 30
def kFileOfferHeaderSize : Nat := 5
def kFileOfferEntryOverhead : Nat := 9
def kFileChunkHeaderSize : Nat := 14
def kMaxFileChunkBytes : Nat := kMaxRecordSize - kCommonHeaderSize - kFileChunkHeaderSize

structure TransferFile where
  size : UInt64 := 0
  name : Bytes := []
deriving DecidableEq, Repr, Inhabited

structure FileOffer where
  batchId : UInt32
  files : List TransferFile
deriving DecidableEq, Repr

inductive TransferReason where
  | accepted | notAccepting | busy | tooManyFiles | tooLarge | badName | writeFailed | corrupt
  | cancelled | linkLost | readFailed
deriving DecidableEq, Repr

def TransferReason.all : List TransferReason :=
  [.accepted, .notAccepting, .busy, .tooManyFiles, .tooLarge, .badName, .writeFailed, .corrupt,
    .cancelled, .linkLost, .readFailed]

def TransferReason.code : TransferReason → UInt8
  | .accepted => 0 | .notAccepting => 1 | .busy => 2 | .tooManyFiles => 3 | .tooLarge => 4
  | .badName => 5 | .writeFailed => 6 | .corrupt => 7 | .cancelled => 8 | .linkLost => 9
  | .readFailed => 10

/-- The reason of a byte; none above `kMaxTransferReason`. -/
def TransferReason.ofCode? (c : UInt8) : Option TransferReason :=
  TransferReason.all.find? (fun r => r.code = c)

@[simp] theorem TransferReason.ofCode?_code (r : TransferReason) :
    TransferReason.ofCode? r.code = some r := by
  cases r <;> decide

structure FileAccept where
  batchId : UInt32
  reason : TransferReason
deriving DecidableEq, Repr

structure FileChunkView where
  batchId : UInt32
  fileIndex : UInt16
  offset : UInt64
  data : Bytes
deriving DecidableEq, Repr

structure FileDone where
  batchId : UInt32
  fileIndex : UInt16
  crc32 : UInt32
deriving DecidableEq, Repr

structure FileAck where
  batchId : UInt32
  fileIndex : UInt16
  reason : TransferReason
deriving DecidableEq, Repr

structure FileCancel where
  batchId : UInt32
  reason : TransferReason
deriving DecidableEq, Repr

def isWireLegalFileName (name : Bytes) : Bool :=
  if name = [] ∨ kMaxTransferNameBytes < name.length then false
  else if name = [0x2E] ∨ name = [0x2E, 0x2E] then false
  else name.all (fun u => ¬ (u < 0x20 ∨ u = 0x7F) ∧ u ≠ 0x2F ∧ u ≠ 0x5C)

/-! ## Builders -/

/-- The checks of `BuildFileOffer` on the files, with the bytes summed so far. -/
def offerable : List TransferFile → UInt64 → Bool
  | [], _ => true
  | f :: rest, totalBytes =>
      let totalBytes := totalBytes + f.size
      isWireLegalFileName f.name && f.size ≤ kMaxTransferFileBytes &&
        totalBytes ≤ kMaxTransferBatchBytes && offerable rest totalBytes

/-- The entry of a file in an offer. -/
def offerEntry (f : TransferFile) : Bytes :=
  let nameLen := utf8TruncLen f.name kMaxTransferNameBytes
  putU64 f.size ++ [UInt8.ofNat nameLen] ++ f.name.take nameLen

def buildFileOffer (cap : Nat) (m : FileOffer) : Option Bytes :=
  if m.files = [] ∨ kMaxTransferFiles < m.files.length then none
  else if !offerable m.files 0 then none
  else
    writeCommon cap .fileOffer 0 .file m.batchId
      (putU32 m.batchId ++ [UInt8.ofNat m.files.length] ++ (m.files.map offerEntry).flatten)

def buildFileAccept (cap : Nat) (m : FileAccept) : Option Bytes :=
  writeCommon cap .fileAccept 0 .file m.batchId (putU32 m.batchId ++ [m.reason.code])

def buildFileChunk (cap : Nat) (m : FileChunkView) : Option Bytes :=
  if m.data = [] ∨ kMaxFileChunkBytes < m.data.length then none
  else if m.fileIndex.toNat ≥ kMaxTransferFiles then none
  else
    writeCommon cap .fileChunk 0 .file m.batchId
      (putU32 m.batchId ++ putU16 m.fileIndex ++ putU64 m.offset ++ m.data)

def buildFileDone (cap : Nat) (m : FileDone) : Option Bytes :=
  writeCommon cap .fileDone 0 .file m.batchId
    (putU32 m.batchId ++ putU16 m.fileIndex ++ putU32 m.crc32)

def buildFileAck (cap : Nat) (m : FileAck) : Option Bytes :=
  writeCommon cap .fileAck 0 .file m.batchId
    (putU32 m.batchId ++ putU16 m.fileIndex ++ [m.reason.code])

def buildFileCancel (cap : Nat) (m : FileCancel) : Option Bytes :=
  writeCommon cap .fileCancel 0 .file m.batchId (putU32 m.batchId ++ [m.reason.code])

/-! ## Parsers -/

/-- The loop of `ParseFileOffer` over `count` entries, with the bytes summed so far. -/
def parseOfferEntries : Nat → Bytes → UInt64 → Option (List TransferFile)
  | 0, _, _ => some []
  | count + 1, p, totalBytes =>
      if p.length < kFileOfferEntryOverhead then none
      else
        let size := getU64 p
        if size > kMaxTransferFileBytes then none
        else
          let totalBytes := totalBytes + size
          if totalBytes > kMaxTransferBatchBytes then none
          else
            let nameLen := (byteAt p 8).toNat
            let p := p.drop kFileOfferEntryOverhead
            if p.length < nameLen then none
            else
              let name := p.take nameLen
              if !isWireLegalFileName name then none
              else (parseOfferEntries count (p.drop nameLen) totalBytes).map (⟨size, name⟩ :: ·)

def parseFileOffer (payload : Bytes) : Option FileOffer :=
  if payload.length < kFileOfferHeaderSize then none
  else
    let count := (byteAt payload 4).toNat
    if count = 0 ∨ kMaxTransferFiles < count then none
    else
      (parseOfferEntries count (payload.drop kFileOfferHeaderSize) 0).map
        (fun files => ⟨getU32 payload, files⟩)

def parseFileAccept (payload : Bytes) : Option FileAccept :=
  if payload.length < 5 then none
  else (TransferReason.ofCode? (byteAt payload 4)).map (fun reason => ⟨getU32 payload, reason⟩)

def parseFileChunk (payload : Bytes) : Option FileChunkView :=
  if payload.length ≤ kFileChunkHeaderSize then none
  else
    let m : FileChunkView :=
      { batchId := getU32 payload
        fileIndex := getU16 (payload.drop 4)
        offset := getU64 (payload.drop 6)
        data := payload.drop kFileChunkHeaderSize }
    if m.fileIndex.toNat ≥ kMaxTransferFiles then none
    else if kMaxFileChunkBytes < m.data.length then none
    else if m.offset > kMaxTransferFileBytes - UInt64.ofNat m.data.length then none
    else some m

def parseFileDone (payload : Bytes) : Option FileDone :=
  if payload.length < 10 then none
  else
    let m : FileDone := ⟨getU32 payload, getU16 (payload.drop 4), getU32 (payload.drop 6)⟩
    if m.fileIndex.toNat ≥ kMaxTransferFiles then none else some m

def parseFileAck (payload : Bytes) : Option FileAck :=
  if payload.length < 7 then none
  else
    match TransferReason.ofCode? (byteAt payload 6) with
    | none => none
    | some reason =>
        let m : FileAck := ⟨getU32 payload, getU16 (payload.drop 4), reason⟩
        if m.fileIndex.toNat ≥ kMaxTransferFiles then none else some m

def parseFileCancel (payload : Bytes) : Option FileCancel :=
  if payload.length < 5 then none
  else (TransferReason.ofCode? (byteAt payload 4)).map (fun reason => ⟨getU32 payload, reason⟩)

/-! ## Round trips -/

/-- A message of the file channel. -/
inductive FileMsg where
  | offer (m : FileOffer)
  | accept (m : FileAccept)
  | chunk (m : FileChunkView)
  | done (m : FileDone)
  | ack (m : FileAck)
  | cancel (m : FileCancel)
deriving DecidableEq, Repr

namespace FileMsg

/-- The batch a message is about. -/
def batchId : FileMsg → UInt32
  | offer m => m.batchId
  | accept m => m.batchId
  | chunk m => m.batchId
  | done m => m.batchId
  | ack m => m.batchId
  | cancel m => m.batchId

def build (cap : Nat) : FileMsg → Option Bytes
  | offer m => buildFileOffer cap m
  | accept m => buildFileAccept cap m
  | chunk m => buildFileChunk cap m
  | done m => buildFileDone cap m
  | ack m => buildFileAck cap m
  | cancel m => buildFileCancel cap m

def type : FileMsg → MsgType
  | offer _ => .fileOffer
  | accept _ => .fileAccept
  | chunk _ => .fileChunk
  | done _ => .fileDone
  | ack _ => .fileAck
  | cancel _ => .fileCancel

/-- Read the payload of a message of type `type`. -/
def parsePayload (type : MsgType) (payload : Bytes) : Option FileMsg :=
  match type with
  | .fileOffer => (parseFileOffer payload).map offer
  | .fileAccept => (parseFileAccept payload).map accept
  | .fileChunk => (parseFileChunk payload).map chunk
  | .fileDone => (parseFileDone payload).map done
  | .fileAck => (parseFileAck payload).map ack
  | .fileCancel => (parseFileCancel payload).map cancel
  | _ => none

/-- The message of a record, when it is one of the file channel. -/
def parse (message : Bytes) : Option FileMsg :=
  match parseCommonHeader message with
  | none => none
  | some h => if h.chan ≠ .file then none else parsePayload h.type (payloadOf message)

/-- The bounds the parsers check on top of the builders: declared file indexes, and
chunks that end within the largest file. -/
def InBounds : FileMsg → Prop
  | chunk m => m.offset.toNat + m.data.length ≤ kMaxTransferFileBytes.toNat
  | done m => m.fileIndex.toNat < kMaxTransferFiles
  | ack m => m.fileIndex.toNat < kMaxTransferFiles
  | _ => True

end FileMsg

/-- A legal name is not cut, and its length fits in a byte. -/
theorem utf8TruncLen_legal {name : Bytes} (h : isWireLegalFileName name = true) :
    utf8TruncLen name kMaxTransferNameBytes = name.length ∧ name.length ≤ 255 := by
  unfold isWireLegalFileName at h
  split at h
  · cases h
  · next hlen =>
    push Not at hlen
    have hle : name.length ≤ kMaxTransferNameBytes := hlen.2
    exact ⟨by rw [utf8TruncLen, if_pos hle], hle⟩

/-- The entries of an offer read back. -/
theorem parseOfferEntries_build (files : List TransferFile) (total : UInt64) (rest : Bytes)
    (h : offerable files total = true) :
    parseOfferEntries files.length ((files.map offerEntry).flatten ++ rest) total = some files := by
  induction files generalizing total with
  | nil => rfl
  | cons f files ih =>
    simp only [offerable, Bool.and_eq_true, decide_eq_true_eq] at h
    rcases h with ⟨⟨⟨hname, hsize⟩, htotal⟩, hrest⟩
    rcases utf8TruncLen_legal hname with ⟨htrunc, hlen⟩
    have hentry : ((f :: files).map offerEntry).flatten ++ rest =
        putU64 f.size ++ (UInt8.ofNat f.name.length :: (f.name ++
          ((files.map offerEntry).flatten ++ rest))) := by
      simp [offerEntry, htrunc, List.append_assoc]
    rw [hentry]
    have hbyte : (byteAt (putU64 f.size ++ (UInt8.ofNat f.name.length :: (f.name ++
        ((files.map offerEntry).flatten ++ rest)))) 8).toNat = f.name.length := by
      show (UInt8.ofNat f.name.length).toNat = f.name.length
      rw [UInt8.toNat_ofNat', Nat.mod_eq_of_lt (by omega)]
    have hdrop : (putU64 f.size ++ (UInt8.ofNat f.name.length :: (f.name ++
        ((files.map offerEntry).flatten ++ rest)))).drop kFileOfferEntryOverhead =
          f.name ++ ((files.map offerEntry).flatten ++ rest) := rfl
    rw [List.length_cons, parseOfferEntries]
    simp only [getU64_putU64, hbyte, hdrop]
    rw [if_neg (by simp [kFileOfferEntryOverhead]; omega), if_neg (UInt64.not_lt.mpr hsize),
      if_neg (UInt64.not_lt.mpr htotal), if_neg (by simp), List.take_left, List.drop_left,
      ih _ hrest]
    simp [hname]

theorem parseFileOffer_build {cap : Nat} {m : FileOffer} {d : Bytes}
    (h : buildFileOffer cap m = some d) : FileMsg.parse d = some (.offer m) := by
  unfold buildFileOffer at h
  split at h
  · cases h
  · next hcount =>
    split at h
    · cases h
    · next hfiles =>
      push Not at hcount
      have hfiles : offerable m.files 0 = true := by simpa using hfiles
      have hpos : 0 < m.files.length := List.length_pos_of_ne_nil hcount.1
      have hmax : m.files.length ≤ 32 := hcount.2
      have hhdr := parseCommonHeader_writeCommon (by decide) (by intro b; simp) h
      have hpl := payloadOf_writeCommon h
      have hbyte : (byteAt (putU32 m.batchId ++ [UInt8.ofNat m.files.length] ++
          (m.files.map offerEntry).flatten) 4).toNat = m.files.length := by
        show (UInt8.ofNat m.files.length).toNat = m.files.length
        rw [UInt8.toNat_ofNat', Nat.mod_eq_of_lt (by omega)]
      have hentries := parseOfferEntries_build m.files 0 [] hfiles
      rw [List.append_nil] at hentries
      have hdrop : (putU32 m.batchId ++ [UInt8.ofNat m.files.length] ++
          (m.files.map offerEntry).flatten).drop kFileOfferHeaderSize =
            (m.files.map offerEntry).flatten := rfl
      have hparse : parseFileOffer (payloadOf d) = some m := by
        rw [hpl]
        unfold parseFileOffer
        simp only [hbyte, hdrop, hentries]
        rw [if_neg (by simp [kFileOfferHeaderSize]; omega),
          if_neg (by simp only [kMaxTransferFiles]; omega)]
        simp only [List.append_assoc, getU32_putU32, Option.map_some]
      simp [FileMsg.parse, hhdr, FileMsg.parsePayload, hparse]

theorem parseFileAccept_payload (m : FileAccept) :
    parseFileAccept (putU32 m.batchId ++ [m.reason.code]) = some m := by
  have hbyte : byteAt (putU32 m.batchId ++ [m.reason.code]) 4 = m.reason.code := rfl
  unfold parseFileAccept
  rw [if_neg (by simp), hbyte, TransferReason.ofCode?_code, getU32_putU32]
  rfl

theorem parseFileCancel_payload (m : FileCancel) :
    parseFileCancel (putU32 m.batchId ++ [m.reason.code]) = some m := by
  have hbyte : byteAt (putU32 m.batchId ++ [m.reason.code]) 4 = m.reason.code := rfl
  unfold parseFileCancel
  rw [if_neg (by simp), hbyte, TransferReason.ofCode?_code, getU32_putU32]
  rfl

theorem parseFileDone_payload (m : FileDone) (h : m.fileIndex.toNat < kMaxTransferFiles) :
    parseFileDone (putU32 m.batchId ++ putU16 m.fileIndex ++ putU32 m.crc32) = some m := by
  have hid : getU32 (putU32 m.batchId ++ putU16 m.fileIndex ++ putU32 m.crc32) = m.batchId := by
    simp only [List.append_assoc, getU32_putU32]
  have hindex : getU16 ((putU32 m.batchId ++ putU16 m.fileIndex ++ putU32 m.crc32).drop 4) =
      m.fileIndex := getU16_putU16 _ (putU32 m.crc32)
  have hcrc : getU32 ((putU32 m.batchId ++ putU16 m.fileIndex ++ putU32 m.crc32).drop 6) =
      m.crc32 := getU32_putU32 _ []
  unfold parseFileDone
  rw [if_neg (by simp)]
  simp only [hid, hindex, hcrc]
  rw [if_neg (by omega)]

theorem parseFileAck_payload (m : FileAck) (h : m.fileIndex.toNat < kMaxTransferFiles) :
    parseFileAck (putU32 m.batchId ++ putU16 m.fileIndex ++ [m.reason.code]) = some m := by
  have hid : getU32 (putU32 m.batchId ++ putU16 m.fileIndex ++ [m.reason.code]) = m.batchId := by
    simp only [List.append_assoc, getU32_putU32]
  have hindex : getU16 ((putU32 m.batchId ++ putU16 m.fileIndex ++ [m.reason.code]).drop 4) =
      m.fileIndex := getU16_putU16 _ [m.reason.code]
  have hbyte : byteAt (putU32 m.batchId ++ putU16 m.fileIndex ++ [m.reason.code]) 6 =
      m.reason.code := rfl
  unfold parseFileAck
  rw [if_neg (by simp), hbyte, TransferReason.ofCode?_code]
  simp only [hid, hindex]
  rw [if_neg (by omega)]

theorem parseFileChunk_payload (m : FileChunkView) (hdata : m.data ≠ [])
    (hlen : m.data.length ≤ kMaxFileChunkBytes) (hindex : m.fileIndex.toNat < kMaxTransferFiles)
    (hend : m.offset.toNat + m.data.length ≤ kMaxTransferFileBytes.toNat) :
    parseFileChunk (putU32 m.batchId ++ putU16 m.fileIndex ++ putU64 m.offset ++ m.data) =
      some m := by
  have hpos : 0 < m.data.length := List.length_pos_of_ne_nil hdata
  have hid : getU32 (putU32 m.batchId ++ putU16 m.fileIndex ++ putU64 m.offset ++ m.data) =
      m.batchId := by
    simp only [List.append_assoc, getU32_putU32]
  have hi : getU16 ((putU32 m.batchId ++ putU16 m.fileIndex ++ putU64 m.offset ++ m.data).drop 4) =
      m.fileIndex := getU16_putU16 _ (putU64 m.offset ++ m.data)
  have ho : getU64 ((putU32 m.batchId ++ putU16 m.fileIndex ++ putU64 m.offset ++ m.data).drop 6) =
      m.offset := getU64_putU64 _ m.data
  have hd : (putU32 m.batchId ++ putU16 m.fileIndex ++ putU64 m.offset ++ m.data).drop
      kFileChunkHeaderSize = m.data := rfl
  unfold parseFileChunk
  rw [if_neg (by simp [kFileChunkHeaderSize]; omega)]
  simp only [hid, hi, ho, hd]
  rw [if_neg (by omega), if_neg (by omega), if_neg]
  -- the last check subtracts the length from the largest file size
  have hmax : kMaxTransferFileBytes.toNat = 8589934592 := rfl
  have hchunk : kMaxFileChunkBytes = 16362 := rfl
  have hlen64 : (UInt64.ofNat m.data.length).toNat = m.data.length := by
    rw [UInt64.toNat_ofNat', Nat.mod_eq_of_lt (by omega)]
  rw [gt_iff_lt, UInt64.lt_iff_toNat_lt, UInt64.toNat_sub_of_le, hlen64]
  · omega
  · rw [UInt64.le_iff_toNat_le, hlen64]
    omega

/-- A built message reads back as it was. -/
theorem FileMsg.parse_build {cap : Nat} {m : FileMsg} {d : Bytes} (hbounds : m.InBounds)
    (h : m.build cap = some d) : FileMsg.parse d = some m := by
  cases m with
  | offer m => exact parseFileOffer_build h
  | accept m =>
    have hhdr := parseCommonHeader_writeCommon (by decide) (by intro b; simp) h
    simp [FileMsg.parse, hhdr, FileMsg.parsePayload, payloadOf_writeCommon h,
      -List.cons_append, parseFileAccept_payload]
  | chunk m =>
    simp only [FileMsg.build, buildFileChunk] at h
    split at h
    · cases h
    · next hdata =>
      split at h
      · cases h
      · next hindex =>
        push Not at hdata hindex
        have hhdr := parseCommonHeader_writeCommon (by decide) (by intro b; simp) h
        have hparse := parseFileChunk_payload m hdata.1 hdata.2 hindex hbounds
        simp only [FileMsg.parse, hhdr, FileMsg.parsePayload, payloadOf_writeCommon h, hparse]
        rfl
  | done m =>
    have hhdr := parseCommonHeader_writeCommon (by decide) (by intro b; simp) h
    have hparse := parseFileDone_payload m hbounds
    simp only [FileMsg.parse, hhdr, FileMsg.parsePayload, payloadOf_writeCommon h, hparse]
    rfl
  | ack m =>
    have hhdr := parseCommonHeader_writeCommon (by decide) (by intro b; simp) h
    have hparse := parseFileAck_payload m hbounds
    simp only [FileMsg.parse, hhdr, FileMsg.parsePayload, payloadOf_writeCommon h, hparse]
    rfl
  | cancel m =>
    have hhdr := parseCommonHeader_writeCommon (by decide) (by intro b; simp) h
    simp [FileMsg.parse, hhdr, FileMsg.parsePayload, payloadOf_writeCommon h,
      -List.cons_append, parseFileCancel_payload]

end Deskhub
