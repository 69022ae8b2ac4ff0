import Deskhub.Lib.Xor
import Deskhub.Lib.Pieces
import Deskhub.Protocol.Wire.Media
import Mathlib.Data.List.Range
import Mathlib.Data.List.Nodup

/-!
# The packetizer

`Packetizer::SendFrame`: a frame is cut into pieces of at most `kMaxVideoPayload`
bytes; with parity on, piece `i` is also added into the parity block of group
`i % numGroups`, behind its two-byte length.
-/

namespace Deskhub

open Xor

def kParityStride : Nat := kFecLenPrefix + kMaxVideoPayload

structure Packetizer where
  sessionId : UInt32 := 0
  fec : Bool := false
deriving DecidableEq, Repr

/-- How many pieces `nal` is cut into. -/
def packetCount (nal : Bytes) : Nat := (nal.length + kMaxVideoPayload - 1) / kMaxVideoPayload

/-- Piece `i` of `nal`: `nal.subspan(off, len)`. -/
def piece (nal : Bytes) (i : Nat) : Bytes := (nal.drop (i * kMaxVideoPayload)).take kMaxVideoPayload

/-- A piece behind its length, as it is added into a parity block. -/
def lenPrefixed (p : Bytes) : Bytes :=
  [UInt8.ofNat (p.length >>> 8), UInt8.ofNat (p.length &&& 0xFF)] ++ p

/-- What a frame is sent with. -/
structure SentFrame where
  nal : Bytes
  frameId : UInt32
  timestampUs : UInt64
  idr : Bool
deriving DecidableEq, Repr

namespace Packetizer

/-- Whether `SendFrame` adds parity to a frame of `count` packets. -/
def sendsParity (p : Packetizer) (count : Nat) : Bool := p.fec && decide (numGroups count ≤ kMaxFecGroups)

/-- The video datagram of piece `i`. -/
def videoDatagram (p : Packetizer) (f : SentFrame) (i : Nat) : Option Bytes :=
  let count := packetCount f.nal
  buildVideoPacket kMaxDatagram p.sessionId
    ⟨f.frameId, f.timestampUs, UInt16.ofNat i, UInt16.ofNat count⟩ f.idr (decide (i + 1 = count))
    (piece f.nal i)

/-- The loop over the pieces: send each, and add it into its group's block.
The flag is false when a datagram could not be built, which ends `SendFrame`. -/
def sendPieces (p : Packetizer) (f : SentFrame) : List Nat → List Bytes → List Bytes × List Bytes × Bool
  | [], parity => ([], parity, true)
  | i :: rest, parity =>
      match p.videoDatagram f i with
      | none => ([], parity, false)
      | some d =>
          let count := packetCount f.nal
          let parity :=
            if p.sendsParity count then
              parity.modify (i % numGroups count) (fun par => xorInto par (lenPrefixed (piece f.nal i)))
            else parity
          let (sent, parity, ok) := sendPieces p f rest parity
          (d :: sent, parity, ok)

/-- The datagram of parity block `g`. -/
def fecDatagram (p : Packetizer) (f : SentFrame) (parity : List Bytes) (g : Nat) : Option Bytes :=
  buildFecPacket kMaxDatagram p.sessionId
    ⟨f.frameId, f.timestampUs, UInt16.ofNat (packetCount f.nal), UInt8.ofNat g⟩ f.idr
    (parity.getD g [])

/-- The loop over the parity blocks. -/
def sendParity (p : Packetizer) (f : SentFrame) (parity : List Bytes) : List Nat → List Bytes × Bool
  | [] => ([], true)
  | g :: rest =>
      match p.fecDatagram f parity g with
      | none => ([], false)
      | some d =>
          let (sent, ok) := sendParity p f parity rest
          (d :: sent, ok)

/-- `SendFrame`: the datagrams handed to `send`, and the packet count returned. -/
def sendFrame (p : Packetizer) (f : SentFrame) : List Bytes × Nat :=
  if f.nal = [] then ([], 0)
  else
    let count := packetCount f.nal
    if 0xFFFF < count then ([], 0)
    else
      let groups := numGroups count
      let (sent, parity, ok) :=
        p.sendPieces f (List.range count) (List.replicate groups (List.replicate kParityStride 0))
      if !ok then (sent, 0)
      else if !p.sendsParity count then (sent, count)
      else
        let (sentParity, ok) := p.sendParity f parity (List.range groups)
        if !ok then (sent ++ sentParity, 0) else (sent ++ sentParity, count)

end Packetizer

/-! ## Pieces -/

theorem length_piece_le (nal : Bytes) (i : Nat) : (piece nal i).length ≤ kMaxVideoPayload :=
  Pieces.length_piece_le kMaxVideoPayload nal i

theorem packetCount_pos {nal : Bytes} (h : nal ≠ []) : 0 < packetCount nal :=
  Pieces.count_pos (c := kMaxVideoPayload) (by decide) h

/-- No piece below the count is empty. -/
theorem piece_ne_nil {nal : Bytes} {i : Nat} (h : i < packetCount nal) : piece nal i ≠ [] :=
  Pieces.piece_ne_nil (c := kMaxVideoPayload) (by decide) h

/-- The pieces of a frame put together give the frame. -/
theorem flatten_pieces (nal : Bytes) :
    ((List.range (packetCount nal)).map (piece nal)).flatten = nal :=
  Pieces.flatten_pieces (c := kMaxVideoPayload) (by decide) nal

@[simp] theorem length_lenPrefixed (p : Bytes) : (lenPrefixed p).length = p.length + 2 := rfl

/-! ## What is sent -/

/-- The members of parity group `g` of a frame. -/
def groupMembers (count g : Nat) : List Nat :=
  (List.range count).filter (fun i => i % numGroups count = g)

/-- The parity block of group `g`: the sum of its members behind their lengths. -/
def parityOf (nal : Bytes) (g : Nat) : Bytes :=
  ((groupMembers (packetCount nal) g).map (fun i => lenPrefixed (piece nal i))).foldl xorInto
    (List.replicate kParityStride 0)

theorem length_parityOf (nal : Bytes) (g : Nat) : (parityOf nal g).length = kParityStride := by
  simp [parityOf]

namespace Packetizer

theorem sendPieces_sent {p : Packetizer} {f : SentFrame} {is : List Nat} {parity : List Bytes}
    {d : Bytes} (h : d ∈ (p.sendPieces f is parity).1) :
    ∃ i ∈ is, p.videoDatagram f i = some d := by
  induction is generalizing parity with
  | nil => simp [sendPieces] at h
  | cons i is ih =>
    unfold sendPieces at h
    split at h
    · simp at h
    · next d' hd' =>
      rcases List.mem_cons.mp h with rfl | h
      · exact ⟨i, by simp, hd'⟩
      · obtain ⟨j, hj, hd⟩ := ih h
        exact ⟨j, by simp [hj], hd⟩

/-- The loop adds to block `g` exactly the pieces of its group. -/
theorem sendPieces_parity {p : Packetizer} {f : SentFrame} {is : List Nat} {parity : List Bytes}
    (hfec : p.sendsParity (packetCount f.nal) = true)
    (hok : (p.sendPieces f is parity).2.2 = true) (g : Nat) :
    (p.sendPieces f is parity).2.1[g]? =
      parity[g]?.map (fun par =>
        ((is.filter (fun i => i % numGroups (packetCount f.nal) = g)).map
          (fun i => lenPrefixed (piece f.nal i))).foldl xorInto par) := by
  induction is generalizing parity with
  | nil => simp [sendPieces]
  | cons i is ih =>
    unfold sendPieces at hok ⊢
    split at hok
    · simp at hok
    · next d hd =>
      simp only [hfec, if_true] at hok ⊢
      rw [ih hok, List.getElem?_modify, Option.map_eq_map, Option.map_map]
      congr 1
      funext par
      by_cases hg : i % numGroups (packetCount f.nal) = g
      · simp [hg]
      · simp [hg]

theorem sendParity_sent {p : Packetizer} {f : SentFrame} {parity : List Bytes} {gs : List Nat}
    {d : Bytes} (h : d ∈ (p.sendParity f parity gs).1) :
    ∃ g ∈ gs, p.fecDatagram f parity g = some d := by
  induction gs with
  | nil => simp [sendParity] at h
  | cons g gs ih =>
    unfold sendParity at h
    split at h
    · simp at h
    · next d' hd' =>
      rcases List.mem_cons.mp h with rfl | h
      · exact ⟨g, by simp, hd'⟩
      · obtain ⟨j, hj, hd⟩ := ih h
        exact ⟨j, by simp [hj], hd⟩

/-- Every datagram of a frame carries one of its pieces or the parity of one of
its groups. -/
theorem sendFrame_sent {p : Packetizer} {f : SentFrame} {d : Bytes} (h : d ∈ (p.sendFrame f).1) :
    f.nal ≠ [] ∧ packetCount f.nal ≤ 0xFFFF ∧
      ((∃ i < packetCount f.nal, p.videoDatagram f i = some d) ∨
        (p.sendsParity (packetCount f.nal) = true ∧ ∃ g < numGroups (packetCount f.nal),
          buildFecPacket kMaxDatagram p.sessionId
            ⟨f.frameId, f.timestampUs, UInt16.ofNat (packetCount f.nal), UInt8.ofNat g⟩ f.idr
            (parityOf f.nal g) = some d)) := by
  unfold sendFrame at h
  split at h
  · simp at h
  · next hnal =>
    simp only at h
    split at h
    · simp at h
    · next hcount =>
      refine ⟨hnal, by omega, ?_⟩
      have hvideo : ∀ parity, d ∈ (p.sendPieces f (List.range (packetCount f.nal)) parity).1 →
          ∃ i < packetCount f.nal, p.videoDatagram f i = some d := by
        intro parity hd
        obtain ⟨i, hi, hd⟩ := sendPieces_sent hd
        exact ⟨i, List.mem_range.mp hi, hd⟩
      split at h
      · exact Or.inl (hvideo _ h)
      · next hok =>
        have hok : (p.sendPieces f (List.range (packetCount f.nal))
            (List.replicate (numGroups (packetCount f.nal))
              (List.replicate kParityStride 0))).2.2 = true := by simpa using hok
        split at h
        · exact Or.inl (hvideo _ h)
        · next hfec =>
          have hfec : p.sendsParity (packetCount f.nal) = true := by simpa using hfec
          have hsplit : d ∈ (p.sendPieces f (List.range (packetCount f.nal))
              (List.replicate (numGroups (packetCount f.nal))
                (List.replicate kParityStride 0))).1 ++
              (p.sendParity f (p.sendPieces f (List.range (packetCount f.nal))
                (List.replicate (numGroups (packetCount f.nal))
                  (List.replicate kParityStride 0))).2.1
                (List.range (numGroups (packetCount f.nal)))).1 := by
            split at h <;> exact h
          rcases List.mem_append.mp hsplit with hd | hd
          · exact Or.inl (hvideo _ hd)
          · obtain ⟨g, hg, hd⟩ := sendParity_sent hd
            have hg : g < numGroups (packetCount f.nal) := List.mem_range.mp hg
            refine Or.inr ⟨hfec, g, hg, ?_⟩
            -- the block that was sent is the sum over the group
            have hblock := sendPieces_parity hfec hok g
            simp only [List.getElem?_replicate, hg, if_true, Option.map_some] at hblock
            simpa [fecDatagram, List.getD_eq_getElem?_getD, hblock, parityOf, groupMembers] using hd

end Packetizer

end Deskhub
