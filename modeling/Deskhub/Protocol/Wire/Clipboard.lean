import Deskhub.Protocol.Wire.Texts

/-!
# Clipboard messages

`BuildClipboardChunk` and `ParseClipboardChunk`: a piece of a copied text behind the
number of the copy and the place of the piece in it.
-/

namespace Deskhub

def kClipboardHeaderSize : Nat := 8
def kMaxClipboardChunkPayload : Nat := kMaxDatagram - kCommonHeaderSize - kClipboardHeaderSize
def kMaxClipboardTextBytes : Nat := 32768
def kMaxClipboardChunks : Nat :=
  (kMaxClipboardTextBytes + kMaxClipboardChunkPayload - 1) / kMaxClipboardChunkPayload

structure ClipboardChunkView where
  revision : UInt32 := 0
  chunkIndex : UInt16 := 0
  chunkCount : UInt16 := 0
  payload : Bytes := []
deriving DecidableEq, Repr

def buildClipboardChunk (cap : Nat) (sessionId : UInt32) (chunk : ClipboardChunkView) :
    Option Bytes :=
  if chunk.chunkCount = 0 ∨ chunk.chunkCount ≤ chunk.chunkIndex then none
  else if kMaxClipboardChunks < chunk.chunkCount.toNat then none
  else if kMaxClipboardChunkPayload < chunk.payload.length then none
  else
    writeCommon cap .clipboard 0 .control sessionId
      (putU32 chunk.revision ++ putU16 chunk.chunkIndex ++ putU16 chunk.chunkCount ++ chunk.payload)

def parseClipboardChunk (payload : Bytes) : Option ClipboardChunkView :=
  if payload.length < kClipboardHeaderSize then none
  else
    let v : ClipboardChunkView :=
      { revision := getU32 payload
        chunkIndex := getU16 (payload.drop 4)
        chunkCount := getU16 (payload.drop 6)
        payload := payload.drop kClipboardHeaderSize }
    if v.chunkCount = 0 ∨ kMaxClipboardChunks < v.chunkCount.toNat then none
    else if v.chunkCount ≤ v.chunkIndex then none
    else if kMaxClipboardChunkPayload < v.payload.length then none
    else some v

def truncateClipboardText (text : Bytes) : Bytes :=
  text.take (utf8TruncLen text kMaxClipboardTextBytes)

/-- A chunk reads back as it was built. -/
theorem parseClipboardChunk_build {cap : Nat} {sessionId : UInt32} {chunk : ClipboardChunkView}
    {d : Bytes} (h : buildClipboardChunk cap sessionId chunk = some d) :
    parseClipboardChunk (payloadOf d) = some chunk := by
  unfold buildClipboardChunk at h
  split at h
  · cases h
  · next hcount =>
    split at h
    · cases h
    · next hmax =>
      split at h
      · cases h
      · next hlen =>
        push Not at hcount
        rw [payloadOf_writeCommon h]
        unfold parseClipboardChunk
        have hrevision : getU32 (putU32 chunk.revision ++ putU16 chunk.chunkIndex ++
            putU16 chunk.chunkCount ++ chunk.payload) = chunk.revision := by
          rw [List.append_assoc, List.append_assoc, getU32_putU32]
        have hindex : getU16 ((putU32 chunk.revision ++ putU16 chunk.chunkIndex ++
            putU16 chunk.chunkCount ++ chunk.payload).drop 4) = chunk.chunkIndex :=
          getU16_putU16 _ _
        have hcount' : getU16 ((putU32 chunk.revision ++ putU16 chunk.chunkIndex ++
            putU16 chunk.chunkCount ++ chunk.payload).drop 6) = chunk.chunkCount :=
          getU16_putU16 _ _
        have hpayload : (putU32 chunk.revision ++ putU16 chunk.chunkIndex ++
            putU16 chunk.chunkCount ++ chunk.payload).drop kClipboardHeaderSize = chunk.payload :=
          rfl
        rw [hrevision, hindex, hcount', hpayload]
        rw [if_neg (by simp [kClipboardHeaderSize]; omega)]
        dsimp only
        rw [if_neg (by simpa using ⟨hcount.1, by omega⟩), if_neg hcount.2, if_neg hlen]

/-! ## Bounded texts -/

theorem length_truncateClipboardText (text : Bytes) :
    (truncateClipboardText text).length ≤ kMaxClipboardTextBytes :=
  Nat.le_trans (List.length_take_le _ _) (utf8TruncLen_le text _)

/-- A text within the limit stays as it is. -/
theorem truncateClipboardText_of_le {text : Bytes} (h : text.length ≤ kMaxClipboardTextBytes) :
    truncateClipboardText text = text := by
  unfold truncateClipboardText utf8TruncLen
  rw [if_pos h, List.take_length]

end Deskhub
