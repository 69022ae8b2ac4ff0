import Deskhub.Lib.Pieces
import Deskhub.Protocol.Wire.Clipboard
import Mathlib.Data.List.Range

/-!
# Clipboard synchronisation

`ClipboardSync`: a copied text goes out in numbered chunks, a few times over; the
chunks of the other side are put together, and a text that came from there or went
there last is not sent again.
-/

namespace Deskhub

def kClipboardResendCount : UInt32 := 2
def kClipboardResendIntervalUs : UInt64 := 60000

structure ClipboardSync where
  outgoing : Bytes := []
  revision : UInt32 := 0
  sendsLeft : UInt32 := 0
  lastSendUs : UInt64 := 0
  lastSentHash : UInt64 := 0
  lastAppliedHash : UInt64 := 0
  haveSentHash : Bool := false
  haveAppliedHash : Bool := false
  inRevision : UInt32 := 0
  lastTakenRevision : UInt32 := 0
  haveTakenRevision : Bool := false
  inChunks : List Bytes := []
  inReceived : Nat := 0
  completed : Option Bytes := none
  sessionId : UInt32 := 0
deriving DecidableEq, Repr

namespace ClipboardSync

def hashText (text : Bytes) : UInt64 :=
  text.foldl (fun h c => (h ^^^ c.toUInt64) * 1099511628211) 14695981039346656037

def setSessionId (s : ClipboardSync) (id : UInt32) : ClipboardSync := { s with sessionId := id }

/-- The text is the one sent last or the one applied last, as far as the hashes tell. -/
def suppresses (s : ClipboardSync) (bounded : Bytes) : Bool :=
  (s.haveSentHash && hashText bounded == s.lastSentHash) ||
    (s.haveAppliedHash && hashText bounded == s.lastAppliedHash)

def offerLocal (s : ClipboardSync) (text : Bytes) : ClipboardSync × Bool :=
  let bounded := truncateClipboardText text
  if bounded = [] then (s, false)
  else if s.suppresses bounded then (s, false)
  else
    ({ s with
      outgoing := bounded
      revision := s.revision + 1
      sendsLeft := 1 + kClipboardResendCount
      lastSentHash := hashText bounded
      haveSentHash := true }, true)

/-- The loop of `SendAllChunks` over the places still to send. -/
def sendChunks (s : ClipboardSync) (chunkCount : Nat) : List Nat → List Bytes
  | [] => []
  | i :: rest =>
    let chunk : ClipboardChunkView :=
      { revision := s.revision
        chunkIndex := UInt16.ofNat i
        chunkCount := UInt16.ofNat chunkCount
        payload := Pieces.piece kMaxClipboardChunkPayload s.outgoing i }
    match buildClipboardChunk kMaxDatagram s.sessionId chunk with
    | none => []
    | some d => d :: sendChunks s chunkCount rest

/-- `SendAllChunks`: the datagrams it sends. -/
def sendAllChunks (s : ClipboardSync) : List Bytes :=
  let chunkCount := (s.outgoing.length + kMaxClipboardChunkPayload - 1) / kMaxClipboardChunkPayload
  s.sendChunks chunkCount (List.range chunkCount)

/-- `Flush`: the datagrams it sends; `canSend` says that there is a send function. -/
def flush (s : ClipboardSync) (nowUs : UInt64) (canSend : Bool) : ClipboardSync × List Bytes :=
  if s.sendsLeft = 0 ∨ s.outgoing = [] ∨ canSend = false then (s, [])
  else if s.sendsLeft ≤ kClipboardResendCount ∧ nowUs - s.lastSendUs < kClipboardResendIntervalUs then
    (s, [])
  else ({ s with sendsLeft := s.sendsLeft - 1, lastSendUs := nowUs }, s.sendAllChunks)

/-- `Accept`: whether the chunk completes a text. -/
def accept (s : ClipboardSync) (chunk : ClipboardChunkView) : ClipboardSync × Bool :=
  if s.haveTakenRevision ∧ chunk.revision ≤ s.lastTakenRevision then (s, false)
  else
    let s :=
      if chunk.revision ≠ s.inRevision ∨ chunk.chunkCount.toNat ≠ s.inChunks.length then
        { s with
          inRevision := chunk.revision
          inChunks := List.replicate chunk.chunkCount.toNat []
          inReceived := 0 }
      else s
    if s.inChunks.getD chunk.chunkIndex.toNat [] ≠ [] then (s, false)
    else if chunk.payload = [] then (s, false)
    else
      let s :=
        { s with
          inChunks := s.inChunks.set chunk.chunkIndex.toNat chunk.payload
          inReceived := s.inReceived + 1 }
      if s.inReceived < s.inChunks.length then (s, false)
      else
        let text := truncateClipboardText s.inChunks.flatten
        if text = [] then (s, false)
        else
          ({ s with
            lastTakenRevision := s.inRevision
            haveTakenRevision := true
            lastAppliedHash := hashText text
            haveAppliedHash := true
            completed := some text
            inChunks := []
            inReceived := 0 }, true)

def takeCompleted (s : ClipboardSync) : ClipboardSync × Option Bytes :=
  ({ s with completed := none }, s.completed)

def forgetReceived (s : ClipboardSync) : ClipboardSync :=
  { s with
    inRevision := 0
    haveTakenRevision := false
    inChunks := []
    inReceived := 0
    completed := none }

def reset (s : ClipboardSync) : ClipboardSync :=
  { s with
    outgoing := []
    revision := 0
    sendsLeft := 0
    lastSendUs := 0
    haveSentHash := false
    haveAppliedHash := false }.forgetReceived

end ClipboardSync

/-!
## What the steps of a clipboard do

The chunks a text is sent as, and what `Accept` makes of a chunk: the slots it is
put into, and when it completes a text.
-/

open Pieces

/-- How many chunks a text is sent in. -/
def clipboardChunkCount (text : Bytes) : Nat := count kMaxClipboardChunkPayload text

/-- Chunk `i` of the text numbered `revision`. -/
def clipboardChunk (revision : UInt32) (text : Bytes) (i : Nat) : ClipboardChunkView :=
  { revision := revision
    chunkIndex := UInt16.ofNat i
    chunkCount := UInt16.ofNat (clipboardChunkCount text)
    payload := piece kMaxClipboardChunkPayload text i }

theorem clipboardChunkCount_pos {text : Bytes} (h : text ≠ []) : 0 < clipboardChunkCount text :=
  count_pos (by decide) h

theorem clipboardChunkCount_le {text : Bytes} (h : text.length ≤ kMaxClipboardTextBytes) :
    clipboardChunkCount text ≤ kMaxClipboardChunks :=
  Nat.div_le_div_right (Nat.sub_le_sub_right (Nat.add_le_add_right h _) 1)

/-- What the fields of a chunk are as numbers. -/
theorem clipboardChunk_fields {text : Bytes} (h : text.length ≤ kMaxClipboardTextBytes)
    (revision : UInt32) {i : Nat} (hi : i < clipboardChunkCount text) :
    (clipboardChunk revision text i).chunkIndex.toNat = i ∧
      (clipboardChunk revision text i).chunkCount.toNat = clipboardChunkCount text ∧
      (clipboardChunk revision text i).payload ≠ [] := by
  have hcount := clipboardChunkCount_le h
  have hmax : kMaxClipboardChunks = 28 := by decide
  refine ⟨?_, ?_, piece_ne_nil (by decide) hi⟩
  · show (UInt16.ofNat i).toNat = i
    rw [UInt16.toNat_ofNat']
    omega
  · show (UInt16.ofNat (clipboardChunkCount text)).toNat = _
    rw [UInt16.toNat_ofNat']
    omega

namespace ClipboardSync

/-! ## Sending -/

/-- The chunks of the outgoing text, as the datagrams read back. -/
theorem sendAllChunks_chunks {s : ClipboardSync} (h : s.outgoing.length ≤ kMaxClipboardTextBytes) :
    s.sendAllChunks.map (fun d => parseClipboardChunk (payloadOf d)) =
      (List.range (clipboardChunkCount s.outgoing)).map fun i =>
        some (clipboardChunk s.revision s.outgoing i) := by
  have hbuild : ∀ i, i < clipboardChunkCount s.outgoing →
      ∃ d, buildClipboardChunk kMaxDatagram s.sessionId (clipboardChunk s.revision s.outgoing i) =
        some d := by
    intro i hi
    rcases clipboardChunk_fields h s.revision hi with ⟨hindex, hcount, -⟩
    have hle := clipboardChunkCount_le h
    have hpiece := length_piece_le kMaxClipboardChunkPayload s.outgoing i
    have hmax : kMaxClipboardChunkPayload = 1184 := rfl
    unfold buildClipboardChunk
    rw [if_neg, if_neg (by omega), if_neg (by show ¬ _ < (piece _ _ _).length; omega)]
    · rw [writeCommon, if_neg]
      · exact ⟨_, rfl⟩
      · have hlen : (clipboardChunk s.revision s.outgoing i).payload.length ≤ 1184 := hpiece
        simp only [List.length_append, length_putU32, length_putU16, kMaxDatagram, kCommonHeaderSize]
        omega
    · rintro (hzero | hbeyond)
      · rw [hzero] at hcount
        have : (0 : UInt16).toNat = 0 := rfl
        omega
      · rw [UInt16.le_iff_toNat_le] at hbeyond
        omega
  have hloop : ∀ is : List Nat, (∀ i ∈ is, i < clipboardChunkCount s.outgoing) →
      (s.sendChunks (clipboardChunkCount s.outgoing) is).map
          (fun d => parseClipboardChunk (payloadOf d)) =
        is.map fun i => some (clipboardChunk s.revision s.outgoing i) := by
    intro is
    induction is with
    | nil => exact fun _ => rfl
    | cons i is ih =>
      intro his
      rcases hbuild i (his i List.mem_cons_self) with ⟨d, hd⟩
      have hsend : s.sendChunks (clipboardChunkCount s.outgoing) (i :: is) =
          d :: s.sendChunks (clipboardChunkCount s.outgoing) is := by
        unfold clipboardChunk at hd
        rw [sendChunks, hd]
      rw [hsend, List.map_cons, List.map_cons, ih fun j hj => his j (List.mem_cons_of_mem i hj),
        parseClipboardChunk_build hd]
  exact hloop _ fun i hi => List.mem_range.mp hi

/-! ## Receiving -/

/-- The number is not above the last one taken. -/
def Refuses (s : ClipboardSync) (revision : UInt32) : Prop :=
  s.haveTakenRevision = true ∧ revision ≤ s.lastTakenRevision

instance (s : ClipboardSync) (revision : UInt32) : Decidable (s.Refuses revision) :=
  inferInstanceAs (Decidable (_ ∧ _))

/-- The slots a chunk of the text numbered `revision` finds: those of that text if they
are kept, else fresh ones. -/
def slotsFor (s : ClipboardSync) (revision : UInt32) (chunkCount : Nat) : List Bytes :=
  if revision ≠ s.inRevision ∨ chunkCount ≠ s.inChunks.length then List.replicate chunkCount []
  else s.inChunks

/-- The state with these slots for the text numbered `revision`. -/
def hold (s : ClipboardSync) (revision : UInt32) (slots : List Bytes) : ClipboardSync :=
  { s with inRevision := revision, inChunks := slots, inReceived := filled slots }

/-- The state once `text`, numbered `revision`, is completed. -/
def complete (s : ClipboardSync) (revision : UInt32) (text : Bytes) : ClipboardSync :=
  { s with
    inRevision := revision
    lastTakenRevision := revision
    haveTakenRevision := true
    lastAppliedHash := hashText text
    haveAppliedHash := true
    completed := some text
    inChunks := []
    inReceived := 0 }

theorem length_slotsFor (s : ClipboardSync) (revision : UInt32) (chunkCount : Nat) :
    (s.slotsFor revision chunkCount).length = chunkCount := by
  unfold slotsFor
  split
  · exact List.length_replicate
  · next h =>
    push Not at h
    exact h.2.symm

theorem accept_refused {s : ClipboardSync} {chunk : ClipboardChunkView}
    (h : s.Refuses chunk.revision) : s.accept chunk = (s, false) := by
  unfold Refuses at h
  unfold accept
  rw [if_pos h]

/-- What a chunk does that is not refused: it is there already, it fills a slot and
leaves another one empty, or it fills the last one. -/
theorem accept_spec {s : ClipboardSync} {chunk : ClipboardChunkView}
    (hcounted : s.inReceived = filled s.inChunks) (hindex : chunk.chunkIndex < chunk.chunkCount)
    (hpayload : chunk.payload ≠ []) (h : ¬ s.Refuses chunk.revision) :
    let slots := s.slotsFor chunk.revision chunk.chunkCount.toNat
    let slots' := slots.set chunk.chunkIndex.toNat chunk.payload
    (slots.getD chunk.chunkIndex.toNat [] ≠ [] ∧
        s.accept chunk = (s.hold chunk.revision slots, false)) ∨
      (slots.getD chunk.chunkIndex.toNat [] = [] ∧
        (((∃ p ∈ slots', p = []) ∧ s.accept chunk = (s.hold chunk.revision slots', false)) ∨
          ((∀ p ∈ slots', p ≠ []) ∧
            s.accept chunk = if truncateClipboardText slots'.flatten = [] then
                (s.hold chunk.revision slots', false)
              else (s.complete chunk.revision (truncateClipboardText slots'.flatten), true)))) := by
  intro slots slots'
  -- the state with the slots the chunk finds
  have hadopt : (if chunk.revision ≠ s.inRevision ∨ chunk.chunkCount.toNat ≠ s.inChunks.length then
      { s with
        inRevision := chunk.revision
        inChunks := List.replicate chunk.chunkCount.toNat []
        inReceived := 0 }
      else s) = s.hold chunk.revision slots := by
    show _ = s.hold chunk.revision (s.slotsFor chunk.revision chunk.chunkCount.toNat)
    unfold slotsFor hold
    split
    · rw [filled_replicate]
    · next hsame =>
      push Not at hsame
      rw [hsame.1, ← hcounted]
  have hlen : chunk.chunkIndex.toNat < slots.length := by
    rw [length_slotsFor]
    exact UInt16.lt_iff_toNat_lt.mp hindex
  unfold Refuses at h
  unfold accept
  rw [if_neg h]
  dsimp only
  rw [hadopt]
  by_cases hslot : slots.getD chunk.chunkIndex.toNat [] = []
  · right
    refine ⟨hslot, ?_⟩
    have hfilled : filled slots + 1 = filled slots' := (filled_set hlen hslot hpayload).symm
    have hlen' : slots.length = slots'.length := by rw [List.length_set]
    rw [if_neg (by exact not_not.mpr hslot), if_neg hpayload]
    by_cases hgap : ∃ p ∈ slots', p = []
    · left
      refine ⟨hgap, ?_⟩
      have hlt := filled_lt_iff.mpr hgap
      rw [if_pos (by show filled slots + 1 < slots'.length; omega)]
      unfold hold
      rw [← hfilled]
    · right
      have hall : ∀ p ∈ slots', p ≠ [] := by
        push Not at hgap
        exact hgap
      refine ⟨hall, ?_⟩
      have hge : ¬ filled slots' < slots'.length := fun hlt => hgap (filled_lt_iff.mp hlt)
      rw [if_neg (by show ¬ filled slots + 1 < slots'.length; omega)]
      unfold hold complete
      rw [← hfilled]
  · exact .inl ⟨hslot, by rw [if_pos (by exact hslot)]⟩

end ClipboardSync

end Deskhub
