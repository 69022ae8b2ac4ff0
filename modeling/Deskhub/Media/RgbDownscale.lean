import Deskhub.Lib.Bounded
import Deskhub.Lib.ScaledEdges
import Deskhub.Protocol.ByteOrder
import Deskhub.Lib.Rows
import Mathlib.Algebra.BigOperators.Intervals
import Mathlib.Algebra.Group.Action.Defs
import Mathlib.Algebra.Order.BigOperators.Group.Finset

/-!
# The RGB downscaler

`RgbDownscaler`: each pixel of the smaller picture is the average of a cell of the larger one. The
cells come from edges that are computed once for a pair of sizes.
-/

namespace Deskhub

def kPackedPixelBytes : Nat := 4
def kOpaqueHighByte : UInt32 := 0xFF000000

structure RgbDownscaler where
  xStart : List UInt32 := []
  yStart : List UInt32 := []
  srcW : UInt32 := 0
  srcH : UInt32 := 0
  dstW : UInt32 := 0
  dstH : UInt32 := 0
deriving DecidableEq, Repr

/-- The sums of the channels of a cell. -/
structure ChannelSums where
  low : UInt32 := 0
  mid : UInt32 := 0
  high : UInt32 := 0
deriving DecidableEq, Repr

namespace RgbDownscaler

open Bounded

/-- `edges.resize(count)`. -/
def resized (edges : List UInt32) (count : Nat) : List UInt32 :=
  edges.take count ++ List.replicate (count - edges.length) 0

/-- What `BuildEdges` writes to place `i`. -/
def edgeAt (srcExtent dstExtent : UInt32) (i : Nat) : UInt32 :=
  (UInt64.ofNat i * srcExtent.toUInt64 / dstExtent.toUInt64).toUInt32

/-- `BuildEdges`. The size is computed in 32 bits. Where it wraps, the loop does not end, and its
first write is not in the vector: there is no result. -/
def buildEdges (edges : List UInt32) (srcExtent dstExtent : UInt32) : Option (List UInt32) :=
  (List.range (dstExtent.toNat + 1)).foldlM
    (fun edges i => set? edges i (edgeAt srcExtent dstExtent i))
    (resized edges (dstExtent + 1).toNat)

/-- `LoadPixel`, on a machine that keeps the low byte first. -/
def loadPixel (src : Bytes) (place : Nat) : Option UInt32 :=
  match src.drop place with
  | a :: b :: c :: d :: _ =>
    some (a.toUInt32 ||| b.toUInt32 <<< 8 ||| c.toUInt32 <<< 16 ||| d.toUInt32 <<< 24)
  | _ => none

/-- A pixel is copied to a place of a buffer. -/
def storePixel (dst : Bytes) (place : Nat) (pixel : UInt32) : Option Bytes :=
  if place + kPackedPixelBytes ≤ dst.length then
    some (dst.take place ++
      [pixel.toUInt8, (pixel >>> 8).toUInt8, (pixel >>> 16).toUInt8, (pixel >>> 24).toUInt8] ++
      dst.drop (place + kPackedPixelBytes))
  else none

/-- Channel `c` of a pixel, the low one being number 0. -/
def channel (c : UInt32) (pixel : UInt32) : UInt32 := pixel >>> (8 * c) &&& 0xFF

def addPixel (sums : ChannelSums) (pixel : UInt32) : ChannelSums where
  low := sums.low + channel 0 pixel
  mid := sums.mid + channel 1 pixel
  high := sums.high + channel 2 pixel

/-- The inner loop of `AveragePixels`. -/
def sumRow (src : Bytes) : Nat → Nat → ChannelSums → Option ChannelSums
  | 0, _, sums => some sums
  | count + 1, place, sums => do
    let pixel ← loadPixel src place
    sumRow src count (place + kPackedPixelBytes) (addPixel sums pixel)

/-- The loops of `AveragePixels`, for so many rows from row `y` on. -/
def sumRows (src : Bytes) (srcStride x0 width : Nat) :
    Nat → Nat → ChannelSums → Option ChannelSums
  | 0, _, sums => some sums
  | rows + 1, y, sums => do
    let sums ← sumRow src width (y * srcStride + x0 * kPackedPixelBytes) sums
    sumRows src srcStride x0 width rows (y + 1) sums

/-- The sums `AveragePixels` divides. -/
def sumPixels (src : Bytes) (srcStride x0 x1 y0 y1 : UInt32) : Option ChannelSums :=
  sumRows src srcStride.toNat x0.toNat (x1.toNat - x0.toNat) (y1.toNat - y0.toNat) y0.toNat {}

/-- `AveragePixels`; no result for a division by zero. -/
def averagePixels (src : Bytes) (srcStride x0 x1 y0 y1 : UInt32) : Option UInt32 := do
  let sums ← sumPixels src srcStride x0 x1 y0 y1
  let count := (x1 - x0) * (y1 - y0)
  if count = 0 then none
  else
    return sums.low / count ||| (sums.mid / count) <<< 8 ||| (sums.high / count) <<< 16 |||
      kOpaqueHighByte

/-- The smaller extent of the two. -/
def clamped (srcExtent dstExtent : UInt32) : UInt32 :=
  if srcExtent < dstExtent then srcExtent else dstExtent

def ready (s : RgbDownscaler) : Bool := s.dstW ≠ 0 && s.dstH ≠ 0

def configure (s : RgbDownscaler) (srcWidth srcHeight dstWidth dstHeight : UInt32) :
    Option RgbDownscaler :=
  let s := { s with
    srcW := srcWidth
    srcH := srcHeight
    dstW := clamped srcWidth dstWidth
    dstH := clamped srcHeight dstHeight }
  if !s.ready then some s
  else do
    let xStart ← buildEdges s.xStart s.srcW s.dstW
    let yStart ← buildEdges s.yStart s.srcH s.dstH
    return { s with xStart := xStart, yStart := yStart }

/-- The two ends of cell `i`. -/
def cell (edges : List UInt32) (i : Nat) : Option (UInt32 × UInt32) := do
  let start ← edges[i]?
  let next ← edges[i + 1]?
  return (start, if start < next then next else start + 1)

/-- The inner loop of `Scale`, for so many pixels from pixel `x` on. -/
def scaleRow (s : RgbDownscaler) (src : Bytes) (srcStride y0 y1 : UInt32) :
    Nat → Nat → Nat → Bytes → Option Bytes
  | 0, _, _, dst => some dst
  | count + 1, x, out, dst => do
    let (x0, x1) ← cell s.xStart x
    let pixel ← averagePixels src srcStride x0 x1 y0 y1
    let dst ← storePixel dst out pixel
    scaleRow s src srcStride y0 y1 count (x + 1) (out + kPackedPixelBytes) dst

/-- The loops of `Scale`, for so many rows from row `y` on. -/
def scaleRows (s : RgbDownscaler) (src : Bytes) (srcStride dstStride : UInt32) :
    Nat → Nat → Bytes → Option Bytes
  | 0, _, dst => some dst
  | rows + 1, y, dst => do
    let (y0, y1) ← cell s.yStart y
    let dst ← scaleRow s src srcStride y0 y1 s.dstW.toNat 0 (y * dstStride.toNat) dst
    scaleRows s src srcStride dstStride rows (y + 1) dst

/-- `Scale`: what the destination holds afterwards. A null pointer is no buffer. -/
def scale (s : RgbDownscaler) (src : Option Bytes) (srcStride : UInt32) (dst : Option Bytes)
    (dstStride : UInt32) : Option (Option Bytes) :=
  if !s.ready then some dst
  else
    match src, dst with
    | some src, some dst => (s.scaleRows src srcStride dstStride s.dstH.toNat 0 dst).map some
    | _, _ => some dst

end RgbDownscaler

/-!
## What the downscaler averages

The cells of a configured downscaler partition the source, and each channel of a destination pixel
is the floor of the mean of its cell. The sizes of the two vectors of edges are computed in 32
bits, so a destination extent of `2 ^ 32 - 1` is the one that is left out.
-/

namespace RgbDownscaler

open Bounded ScaledEdges

/-! ## The edges -/

/-- A loop that assigns each place of the back part of a list. -/
theorem assign_back (f : Nat → UInt32) (front back : List UInt32) :
    (List.range' front.length back.length).foldlM (fun edges i => set? edges i (f i))
        (front ++ back) =
      some (front ++ (List.range' front.length back.length).map f) := by
  induction back generalizing front with
  | nil => rfl
  | cons x back ih =>
    have hnext := ih (front ++ [f front.length])
    rw [List.length_append, List.length_singleton, List.append_assoc, List.append_assoc] at hnext
    rw [List.length_cons, List.range'_succ, List.foldlM_cons, set?_append]
    exact hnext

/-- Every place of a list is assigned. -/
theorem assign_all (f : Nat → UInt32) (edges : List UInt32) :
    (List.range edges.length).foldlM (fun edges i => set? edges i (f i)) edges =
      some ((List.range edges.length).map f) := by
  have hback := assign_back f [] edges
  rw [List.length_nil, ← List.range_eq_range'] at hback
  exact hback

theorem length_resized (edges : List UInt32) (count : Nat) : (resized edges count).length = count := by
  unfold resized
  rw [List.length_append, List.length_take, List.length_replicate]
  omega

/-- The one extent whose number of edges wraps. -/
def WidestExtent (extent : UInt32) : Prop := extent = 0xFFFFFFFF

instance (extent : UInt32) : Decidable (WidestExtent extent) :=
  inferInstanceAs (Decidable (_ = _))

theorem buildEdges_eq {dstExtent : UInt32} (h : ¬ WidestExtent dstExtent) (edges : List UInt32)
    (srcExtent : UInt32) :
    buildEdges edges srcExtent dstExtent =
      some ((List.range (dstExtent.toNat + 1)).map (edgeAt srcExtent dstExtent)) := by
  have hbound := dstExtent.toNat_lt
  have hne : dstExtent.toNat ≠ 0xFFFFFFFF := fun heq => h (UInt32.toNat_inj.mp heq)
  have hcount : (dstExtent + 1).toNat = dstExtent.toNat + 1 := by
    have hone : (1 : UInt32).toNat = 1 := rfl
    rw [UInt32.toNat_add, hone]
    exact Nat.mod_eq_of_lt (by omega)
  have hall := assign_all (edgeAt srcExtent dstExtent) (resized edges (dstExtent.toNat + 1))
  rw [length_resized] at hall
  unfold buildEdges
  rw [hcount, hall]

/-- The first write is not in the vector. -/
theorem buildEdges_widest (edges : List UInt32) (srcExtent : UInt32) :
    buildEdges edges srcExtent 0xFFFFFFFF = none := by
  have hempty : resized edges ((0xFFFFFFFF : UInt32) + 1).toNat = [] := by
    apply List.eq_nil_of_length_eq_zero
    rw [length_resized]
    rfl
  unfold buildEdges
  rw [hempty, List.range_succ_eq_map, List.foldlM_cons]
  rfl

theorem toNat_edgeAt {srcExtent dstExtent : UInt32} (hdst : dstExtent ≠ 0) {i : Nat}
    (hi : i ≤ dstExtent.toNat) :
    (edgeAt srcExtent dstExtent i).toNat = edge srcExtent.toNat dstExtent.toNat i := by
  have hsrc := srcExtent.toNat_lt
  have hbound := dstExtent.toNat_lt
  have hpos : 0 < dstExtent.toNat := Nat.pos_of_ne_zero fun heq => hdst (UInt32.toNat_inj.mp heq)
  have hi64 : (UInt64.ofNat i).toNat = i := by
    rw [UInt64.toNat_ofNat']
    exact Nat.mod_eq_of_lt (by omega)
  have hproduct : i * srcExtent.toNat < 2 ^ 64 := by
    calc i * srcExtent.toNat ≤ 2 ^ 32 * srcExtent.toNat := Nat.mul_le_mul_right _ (by omega)
      _ < 2 ^ 64 := by omega
  have hle := @edge_le srcExtent.toNat _ hpos _ hi
  unfold edgeAt
  rw [UInt64.toNat_toUInt32, UInt64.toNat_div, UInt64.toNat_mul, UInt32.toNat_toUInt64,
    UInt32.toNat_toUInt64, hi64, Nat.mod_eq_of_lt hproduct]
  show edge srcExtent.toNat dstExtent.toNat i % 2 ^ 32 = _
  exact Nat.mod_eq_of_lt (by omega)

/-- The edges of one direction: with no more cells than places, cell `i` is what the edges say. -/
theorem cell_eq {srcExtent dstExtent : UInt32} (hdst : dstExtent ≠ 0) (hle : dstExtent ≤ srcExtent)
    {i : Nat} (hi : i < dstExtent.toNat) :
    cell ((List.range (dstExtent.toNat + 1)).map (edgeAt srcExtent dstExtent)) i =
      some (edgeAt srcExtent dstExtent i, edgeAt srcExtent dstExtent (i + 1)) := by
  have hpos : 0 < dstExtent.toNat := by omega
  have hlt : edgeAt srcExtent dstExtent i < edgeAt srcExtent dstExtent (i + 1) := by
    rw [UInt32.lt_iff_toNat_lt, toNat_edgeAt hdst (Nat.le_of_lt hi), toNat_edgeAt hdst hi]
    exact edge_lt_succ hpos (UInt32.le_iff_toNat_le.mp hle) i
  unfold cell
  rw [List.getElem?_map, List.getElem?_map, List.getElem?_range (by omega),
    List.getElem?_range (by omega)]
  simp only [Option.map_some, Option.bind_eq_bind, Option.bind_some, if_pos hlt]
  rfl

/-! ## Pixels as bytes -/

/-- Four bytes as a pixel, the low one first. -/
def ofBytes (a b c d : UInt8) : UInt32 :=
  a.toUInt32 ||| b.toUInt32 <<< 8 ||| c.toUInt32 <<< 16 ||| d.toUInt32 <<< 24

theorem toNat_ofBytes (a b c d : UInt8) :
    (ofBytes a b c d).toNat =
      a.toNat + b.toNat * 2 ^ 8 + c.toNat * 2 ^ 16 + d.toNat * 2 ^ 24 := by
  have ha := a.toNat_lt
  have hb := b.toNat_lt
  have hc := c.toNat_lt
  have hd := d.toNat_lt
  have hshift : ∀ (x : UInt8) (k : UInt32), k.toNat ≤ 24 → (x.toUInt32 <<< k).toNat =
      x.toNat * 2 ^ k.toNat := by
    intro x k hk
    have hx := x.toNat_lt
    rw [UInt32.toNat_shiftLeft, Nat.mod_eq_of_lt (by omega : k.toNat < 32), UInt8.toNat_toUInt32,
      Nat.shiftLeft_eq]
    apply Nat.mod_eq_of_lt
    calc x.toNat * 2 ^ k.toNat ≤ x.toNat * 2 ^ 24 :=
          Nat.mul_le_mul_left _ (Nat.pow_le_pow_right (by decide) hk)
      _ < 2 ^ 32 := by omega
  have hor := join_bytes (a := d.toNat) hc hb ha
  unfold ofBytes
  rw [UInt32.toNat_or, UInt32.toNat_or, UInt32.toNat_or, hshift b 8 (by decide),
    hshift c 16 (by decide), hshift d 24 (by decide), UInt8.toNat_toUInt32]
  show a.toNat ||| b.toNat * 2 ^ 8 ||| c.toNat * 2 ^ 16 ||| d.toNat * 2 ^ 24 = _
  rw [Nat.or_comm _ (d.toNat * 2 ^ 24), Nat.or_comm _ (c.toNat * 2 ^ 16),
    Nat.or_comm a.toNat, ← Nat.or_assoc, ← Nat.or_assoc, hor]
  omega

/-- The bytes of a pixel are those it is made of. -/
theorem toUInt8_ofBytes (a b c d : UInt8) :
    (ofBytes a b c d).toUInt8 = a ∧ (ofBytes a b c d >>> 8).toUInt8 = b ∧
      (ofBytes a b c d >>> 16).toUInt8 = c ∧ (ofBytes a b c d >>> 24).toUInt8 = d := by
  have ha := a.toNat_lt
  have hb := b.toNat_lt
  have hc := c.toNat_lt
  have hd := d.toNat_lt
  have hword := toNat_ofBytes a b c d
  have hshift : ∀ k : UInt32, k.toNat < 32 →
      (ofBytes a b c d >>> k).toUInt8.toNat = (ofBytes a b c d).toNat / 2 ^ k.toNat % 2 ^ 8 := by
    intro k hk
    rw [UInt32.toNat_toUInt8, UInt32.toNat_shiftRight, Nat.mod_eq_of_lt hk,
      Nat.shiftRight_eq_div_pow]
  refine ⟨?_, ?_, ?_, ?_⟩
  · apply UInt8.toNat_inj.mp
    rw [UInt32.toNat_toUInt8, hword]
    omega
  · apply UInt8.toNat_inj.mp
    rw [hshift 8 (by decide), hword]
    show _ / 2 ^ 8 % 2 ^ 8 = _
    omega
  · apply UInt8.toNat_inj.mp
    rw [hshift 16 (by decide), hword]
    show _ / 2 ^ 16 % 2 ^ 8 = _
    omega
  · apply UInt8.toNat_inj.mp
    rw [hshift 24 (by decide), hword]
    show _ / 2 ^ 24 % 2 ^ 8 = _
    omega

/-- The channels of a pixel are its first three bytes. -/
theorem channel_ofBytes (a b c d : UInt8) :
    (channel 0 (ofBytes a b c d)).toNat = a.toNat ∧ (channel 1 (ofBytes a b c d)).toNat = b.toNat ∧
      (channel 2 (ofBytes a b c d)).toNat = c.toNat := by
  have hbyte : ∀ k : UInt32, (channel k (ofBytes a b c d)).toNat =
      (ofBytes a b c d >>> (8 * k)).toUInt8.toNat := by
    intro k
    unfold channel
    rw [UInt32.toNat_and, UInt32.toNat_toUInt8]
    exact Nat.and_two_pow_sub_one_eq_mod _ 8
  rcases toUInt8_ofBytes a b c d with ⟨hlow, hmid, hhigh, -⟩
  refine ⟨?_, ?_, ?_⟩
  · rw [hbyte]
    have hzero : ofBytes a b c d >>> (8 * 0) = ofBytes a b c d := by
      apply UInt32.toNat_inj.mp
      rw [UInt32.toNat_shiftRight]
      rfl
    rw [hzero, hlow]
  · rw [hbyte]
    exact congrArg UInt8.toNat hmid
  · rw [hbyte]
    exact congrArg UInt8.toNat hhigh

theorem loadPixel_eq {src : Bytes} {place : Nat} (h : place + kPackedPixelBytes ≤ src.length) :
    loadPixel src place = some (ofBytes (byteAt src place) (byteAt src (place + 1))
      (byteAt src (place + 2)) (byteAt src (place + 3))) := by
  have hin : ∀ k < 4, place + k < src.length := by
    intro k hk
    change place + 4 ≤ src.length at h
    omega
  have hdrop : ∀ k < 4, src.drop (place + k) = byteAt src (place + k) :: src.drop (place + k + 1) := by
    intro k hk
    rw [List.drop_eq_getElem_cons (hin k hk)]
    unfold byteAt
    rw [List.getD_eq_getElem _ _ (hin k hk)]
  have hzero := hdrop 0 (by decide)
  rw [Nat.add_zero] at hzero
  unfold loadPixel
  rw [hzero, hdrop 1 (by decide), hdrop 2 (by decide), hdrop 3 (by decide)]
  rfl

/-! ## The sums of a cell -/

/-- Each sum grows by what `f` says for its channel. -/
def Adds (f : Nat → Nat) (sums sums' : ChannelSums) : Prop :=
  sums'.low.toNat = sums.low.toNat + f 0 ∧ sums'.mid.toNat = sums.mid.toNat + f 1 ∧
    sums'.high.toNat = sums.high.toNat + f 2

/-- Each sum may grow by so much. -/
def RoomFor (more : Nat) (sums : ChannelSums) : Prop :=
  sums.low.toNat + more < 2 ^ 32 ∧ sums.mid.toNat + more < 2 ^ 32 ∧ sums.high.toNat + more < 2 ^ 32

theorem Adds.roomFor {f : Nat → Nat} {sums sums' : ChannelSums} (h : Adds f sums sums')
    {used more : Nat} (hf : ∀ c < 3, f c ≤ used) (hroom : RoomFor (used + more) sums) :
    RoomFor more sums' := by
  rcases h with ⟨hlow, hmid, hhigh⟩
  rcases hroom with ⟨hlow', hmid', hhigh'⟩
  have hf0 := hf 0 (by decide)
  have hf1 := hf 1 (by decide)
  have hf2 := hf 2 (by decide)
  exact ⟨by omega, by omega, by omega⟩

theorem Adds.trans {f g : Nat → Nat} {sums sums' sums'' : ChannelSums} (h : Adds f sums sums')
    (h' : Adds g sums' sums'') : Adds (fun c => f c + g c) sums sums'' := by
  rcases h with ⟨hlow, hmid, hhigh⟩
  rcases h' with ⟨hlow', hmid', hhigh'⟩
  exact ⟨by rw [hlow', hlow, Nat.add_assoc], by rw [hmid', hmid, Nat.add_assoc],
    by rw [hhigh', hhigh, Nat.add_assoc]⟩

/-- The channels of the pixel at a place. -/
def channelsAt (src : Bytes) (place c : Nat) : Nat := (byteAt src (place + c)).toNat

theorem channelsAt_le (src : Bytes) (place c : Nat) : channelsAt src place c ≤ 255 :=
  Nat.le_of_lt_succ (byteAt src (place + c)).toNat_lt

theorem adds_addPixel {src : Bytes} {place : Nat} {sums : ChannelSums} (hroom : RoomFor 255 sums)
    {pixel : UInt32} (hpixel : loadPixel src place = some pixel)
    (hin : place + kPackedPixelBytes ≤ src.length) :
    Adds (channelsAt src place) sums (addPixel sums pixel) := by
  rw [loadPixel_eq hin, Option.some.injEq] at hpixel
  rcases channel_ofBytes (byteAt src place) (byteAt src (place + 1)) (byteAt src (place + 2))
    (byteAt src (place + 3)) with ⟨hlow, hmid, hhigh⟩
  rw [hpixel] at hlow hmid hhigh
  have hsum : ∀ (c : Nat) (sum value : UInt32), sum.toNat + 255 < 2 ^ 32 →
      value.toNat = channelsAt src place c →
      (sum + value).toNat = sum.toNat + channelsAt src place c := by
    intro c sum value hfits hvalue
    have hle := channelsAt_le src place c
    rw [UInt32.toNat_add, hvalue]
    exact Nat.mod_eq_of_lt (by omega)
  exact ⟨hsum 0 _ _ hroom.1 hlow, hsum 1 _ _ hroom.2.1 hmid, hsum 2 _ _ hroom.2.2 hhigh⟩

/-- The sum of a channel over the pixels from a place on. -/
def rowSum (src : Bytes) (place count c : Nat) : Nat :=
  ∑ i ∈ Finset.range count, channelsAt src (place + i * kPackedPixelBytes) c

theorem rowSum_le (src : Bytes) (place count c : Nat) : rowSum src place count c ≤ 255 * count := by
  have hle := Finset.sum_le_card_nsmul (Finset.range count)
    (fun i => channelsAt src (place + i * kPackedPixelBytes) c) 255 fun i _ => channelsAt_le src _ c
  rw [Finset.card_range, smul_eq_mul, Nat.mul_comm] at hle
  exact hle

theorem rowSum_succ (src : Bytes) (place count c : Nat) :
    rowSum src place (count + 1) c =
      channelsAt src place c + rowSum src (place + kPackedPixelBytes) count c := by
  unfold rowSum
  rw [Finset.sum_range_succ', Nat.add_comm, Nat.zero_mul, Nat.add_zero]
  congr 1
  apply Finset.sum_congr rfl
  intro i _
  rw [Nat.succ_mul, Nat.add_comm (i * _), Nat.add_assoc]

theorem sumRow_adds {src : Bytes} {count place : Nat} {sums : ChannelSums}
    (hin : place + count * kPackedPixelBytes ≤ src.length) (hroom : RoomFor (255 * count) sums) :
    ∃ sums', sumRow src count place sums = some sums' ∧ Adds (rowSum src place count) sums sums' := by
  induction count generalizing place sums with
  | zero => exact ⟨sums, rfl, rfl, rfl, rfl⟩
  | succ count ih =>
    rw [Nat.succ_mul] at hin
    have hfirst : place + kPackedPixelBytes ≤ src.length := by omega
    have hpixel := loadPixel_eq hfirst
    rw [Nat.mul_succ, Nat.add_comm] at hroom
    have hone : RoomFor 255 sums := ⟨by have := hroom.1; omega, by have := hroom.2.1; omega,
      by have := hroom.2.2; omega⟩
    have hadds := adds_addPixel hone hpixel hfirst
    have hmore : place + kPackedPixelBytes + count * kPackedPixelBytes ≤ src.length := by omega
    rcases ih hmore
      (hadds.roomFor (fun c _ => channelsAt_le src place c) hroom) with ⟨sums', hsums', hrest⟩
    refine ⟨sums', ?_, ?_⟩
    · rw [sumRow, hpixel]
      exact hsums'
    · have hboth := hadds.trans hrest
      have hsum : (fun c => channelsAt src place c + rowSum src (place + kPackedPixelBytes) count c) =
          rowSum src place (count + 1) := funext fun c => (rowSum_succ src place count c).symm
      rw [hsum] at hboth
      exact hboth

/-- The sum of a channel over the pixels of a cell. -/
def cellSum (src : Bytes) (srcStride x0 x1 y0 y1 c : Nat) : Nat :=
  ∑ y ∈ Finset.Ico y0 y1, ∑ x ∈ Finset.Ico x0 x1,
    (byteAt src (y * srcStride + x * kPackedPixelBytes + c)).toNat

theorem cellSum_eq (src : Bytes) (srcStride x0 x1 y0 y1 c : Nat) :
    cellSum src srcStride x0 x1 y0 y1 c =
      ∑ y ∈ Finset.Ico y0 y1, rowSum src (y * srcStride + x0 * kPackedPixelBytes) (x1 - x0) c := by
  unfold cellSum rowSum
  apply Finset.sum_congr rfl
  intro y _
  rw [Finset.sum_Ico_eq_sum_range]
  apply Finset.sum_congr rfl
  intro i _
  unfold channelsAt
  simp only [Nat.add_mul, Nat.add_assoc]

theorem cellSum_le (src : Bytes) (srcStride x0 x1 y0 y1 c : Nat) :
    cellSum src srcStride x0 x1 y0 y1 c ≤ 255 * ((x1 - x0) * (y1 - y0)) := by
  rw [cellSum_eq]
  have hle := Finset.sum_le_card_nsmul (Finset.Ico y0 y1)
    (fun y => rowSum src (y * srcStride + x0 * kPackedPixelBytes) (x1 - x0) c)
    (255 * (x1 - x0)) fun y _ => rowSum_le src _ _ c
  rw [Nat.card_Ico, smul_eq_mul, Nat.mul_left_comm, Nat.mul_comm (y1 - y0)] at hle
  exact hle

theorem sumRows_adds {src : Bytes} {srcStride x0 width rows y : Nat} {sums : ChannelSums}
    (hin : ∀ r < rows, (y + r) * srcStride + (x0 + width) * kPackedPixelBytes ≤ src.length)
    (hroom : RoomFor (255 * (width * rows)) sums) :
    ∃ sums', sumRows src srcStride x0 width rows y sums = some sums' ∧
      Adds (fun c => ∑ r ∈ Finset.Ico y (y + rows),
        rowSum src (r * srcStride + x0 * kPackedPixelBytes) width c) sums sums' := by
  induction rows generalizing y sums with
  | zero =>
    refine ⟨sums, rfl, ?_⟩
    rw [Nat.add_zero, Finset.Ico_self]
    exact ⟨rfl, rfl, rfl⟩
  | succ rows ih =>
    rw [Nat.mul_succ, Nat.mul_add, Nat.add_comm] at hroom
    have hfirst := hin 0 (Nat.succ_pos rows)
    rw [Nat.add_zero, Nat.add_mul, ← Nat.add_assoc] at hfirst
    have hone : RoomFor (255 * width) sums := ⟨by have := hroom.1; omega,
      by have := hroom.2.1; omega, by have := hroom.2.2; omega⟩
    rcases sumRow_adds hfirst hone with ⟨sums₁, hsums₁, hadds⟩
    have hrest : ∀ r < rows,
        (y + 1 + r) * srcStride + (x0 + width) * kPackedPixelBytes ≤ src.length := by
      intro r hr
      have hnext := hin (r + 1) (Nat.succ_lt_succ hr)
      rw [show y + (r + 1) = y + 1 + r by omega] at hnext
      exact hnext
    rcases ih hrest (hadds.roomFor (fun c _ => rowSum_le src _ _ c) hroom) with
      ⟨sums₂, hsums₂, hadds₂⟩
    refine ⟨sums₂, ?_, ?_⟩
    · rw [sumRows, hsums₁]
      exact hsums₂
    · have hboth := hadds.trans hadds₂
      have hsplit : ∀ c, (∑ r ∈ Finset.Ico y (y + (rows + 1)),
          rowSum src (r * srcStride + x0 * kPackedPixelBytes) width c) =
          rowSum src (y * srcStride + x0 * kPackedPixelBytes) width c +
            ∑ r ∈ Finset.Ico (y + 1) (y + 1 + rows),
              rowSum src (r * srcStride + x0 * kPackedPixelBytes) width c := by
        intro c
        rw [Finset.sum_eq_sum_Ico_succ_bot (by omega : y < y + (rows + 1)),
          show y + (rows + 1) = y + 1 + rows by omega]
      simp only [hsplit]
      exact hboth

/-- The pixels of a cell, numbered within 32 bits. -/
structure GoodCell (src : Bytes) (srcStride x0 x1 y0 y1 : UInt32) : Prop where
  wide : x0 < x1
  high : y0 < y1
  inside : ∀ y < y1.toNat,
    y * srcStride.toNat + x1.toNat * kPackedPixelBytes ≤ src.length
  small : 255 * ((x1.toNat - x0.toNat) * (y1.toNat - y0.toNat)) < 2 ^ 32

/-- The sum of a channel over a cell of the code. -/
def sumOf (src : Bytes) (srcStride x0 x1 y0 y1 : UInt32) (c : Nat) : Nat :=
  cellSum src srcStride.toNat x0.toNat x1.toNat y0.toNat y1.toNat c

variable {src : Bytes} {srcStride x0 x1 y0 y1 : UInt32}

/-- The number of pixels, as the code computes it. -/
theorem GoodCell.toNat_count (h : GoodCell src srcStride x0 x1 y0 y1) :
    ((x1 - x0) * (y1 - y0)).toNat = (x1.toNat - x0.toNat) * (y1.toNat - y0.toNat) := by
  have hwide := UInt32.le_of_lt h.wide
  have hhigh := UInt32.le_of_lt h.high
  have hsmall := h.small
  rw [UInt32.toNat_mul, UInt32.toNat_sub_of_le _ _ hwide, UInt32.toNat_sub_of_le _ _ hhigh]
  exact Nat.mod_eq_of_lt (by omega)

theorem GoodCell.count_pos (h : GoodCell src srcStride x0 x1 y0 y1) :
    0 < (x1.toNat - x0.toNat) * (y1.toNat - y0.toNat) :=
  Nat.mul_pos (Nat.sub_pos_of_lt h.wide) (Nat.sub_pos_of_lt h.high)

/-- No sum wraps. -/
theorem GoodCell.sums (h : GoodCell src srcStride x0 x1 y0 y1) :
    ∃ sums, sumPixels src srcStride x0 x1 y0 y1 = some sums ∧
      Adds (sumOf src srcStride x0 x1 y0 y1) {} sums := by
  have hwide : x0.toNat < x1.toNat := h.wide
  have hhigh : y0.toNat < y1.toNat := h.high
  have hsmall := h.small
  have hin : ∀ r < y1.toNat - y0.toNat, (y0.toNat + r) * srcStride.toNat +
      (x0.toNat + (x1.toNat - x0.toNat)) * kPackedPixelBytes ≤ src.length := by
    intro r hr
    rw [Nat.add_sub_of_le (Nat.le_of_lt hwide)]
    exact h.inside _ (by omega)
  have hzero : (({} : ChannelSums).low).toNat = 0 := rfl
  have hroom : RoomFor (255 * ((x1.toNat - x0.toNat) * (y1.toNat - y0.toNat))) {} := by
    refine ⟨?_, ?_, ?_⟩
    all_goals
      show 0 + _ < _
      omega
  rcases sumRows_adds hin hroom with ⟨sums, hsums, hadds⟩
  refine ⟨sums, hsums, ?_⟩
  rw [Nat.add_sub_of_le (Nat.le_of_lt hhigh)] at hadds
  unfold sumOf
  simp only [cellSum_eq]
  exact hadds

/-- The mean of a channel over a cell. -/
def meanOf (src : Bytes) (srcStride x0 x1 y0 y1 : UInt32) (c : Nat) : Nat :=
  sumOf src srcStride x0 x1 y0 y1 c / ((x1.toNat - x0.toNat) * (y1.toNat - y0.toNat))

theorem meanOf_lt (src : Bytes) (srcStride x0 x1 y0 y1 : UInt32) (c : Nat) :
    meanOf src srcStride x0 x1 y0 y1 c < 256 := by
  have hle : meanOf src srcStride x0 x1 y0 y1 c ≤ 255 :=
    Nat.div_le_of_le_mul (Nat.mul_comm _ 255 ▸ cellSum_le src _ _ _ _ _ c)
  exact Nat.lt_succ_of_le hle

/-- Channel `c` of the average, and an opaque high byte. -/
def averageByte (src : Bytes) (srcStride x0 x1 y0 y1 : UInt32) (c : Nat) : UInt8 :=
  if c < 3 then UInt8.ofNat (meanOf src srcStride x0 x1 y0 y1 c) else 0xFF

/-- `AveragePixels` gives the means. -/
theorem GoodCell.averagePixels_eq (h : GoodCell src srcStride x0 x1 y0 y1) :
    averagePixels src srcStride x0 x1 y0 y1 =
      some (ofBytes (averageByte src srcStride x0 x1 y0 y1 0)
        (averageByte src srcStride x0 x1 y0 y1 1) (averageByte src srcStride x0 x1 y0 y1 2)
        (averageByte src srcStride x0 x1 y0 y1 3)) := by
  rcases h.sums with ⟨sums, hsums, hlow, hmid, hhigh⟩
  have hcount := h.toNat_count
  have hpos := h.count_pos
  have hne : (x1 - x0) * (y1 - y0) ≠ 0 := by
    intro hzero
    rw [hzero] at hcount
    rw [← hcount] at hpos
    exact Nat.lt_irrefl 0 hpos
  have hmean : ∀ (c : Nat) (sum : UInt32), c < 3 →
      sum.toNat = 0 + sumOf src srcStride x0 x1 y0 y1 c →
      sum / ((x1 - x0) * (y1 - y0)) = (averageByte src srcStride x0 x1 y0 y1 c).toUInt32 := by
    intro c sum hc hsum
    apply UInt32.toNat_inj.mp
    rw [UInt32.toNat_div, hsum, hcount, Nat.zero_add, UInt8.toNat_toUInt32, averageByte, if_pos hc,
      UInt8.toNat_ofNat',
      Nat.mod_eq_of_lt (meanOf_lt src srcStride x0 x1 y0 y1 c)]
    rfl
  unfold averagePixels
  rw [hsums]
  simp only [Option.bind_eq_bind, Option.bind_some, if_neg hne]
  have hopaque : (averageByte src srcStride x0 x1 y0 y1 3).toUInt32 <<< 24 = kOpaqueHighByte := by
    rw [averageByte, if_neg (by decide)]
    decide
  rw [hmean 0 _ (by decide) hlow, hmean 1 _ (by decide) hmid, hmean 2 _ (by decide) hhigh, ofBytes,
    hopaque]
  rfl

/-! ## The destination -/

theorem storePixel_ofBytes {dst : Bytes} {place : Nat} (h : place + kPackedPixelBytes ≤ dst.length)
    (a b c d : UInt8) :
    storePixel dst place (ofBytes a b c d) =
      some (dst.take place ++ [a, b, c, d] ++ dst.drop (place + kPackedPixelBytes)) := by
  rcases toUInt8_ofBytes a b c d with ⟨ha, hb, hc, hd⟩
  unfold storePixel
  rw [if_pos h, ha, hb, hc, hd]

/-- The pixels of a row lie side by side. -/
theorem scaleRow_eq {s : RgbDownscaler} {f : Nat → Nat → UInt8} {count x out : Nat} {dst : Bytes}
    (hpixels : ∀ i, x ≤ i → i < x + count → ∃ x0 x1, cell s.xStart i = some (x0, x1) ∧
      averagePixels src srcStride x0 x1 y0 y1 = some (ofBytes (f i 0) (f i 1) (f i 2) (f i 3)))
    (hroom : out + count * kPackedPixelBytes ≤ dst.length) :
    scaleRow s src srcStride y0 y1 count x out dst =
      some (dst.take out ++ (List.range' x count).flatMap (fun i => [f i 0, f i 1, f i 2, f i 3]) ++
        dst.drop (out + count * kPackedPixelBytes)) := by
  induction count generalizing x out dst with
  | zero =>
    rw [scaleRow, Nat.zero_mul, Nat.add_zero, List.range'_zero, List.flatMap_nil, List.append_nil,
      List.take_append_drop]
  | succ count ih =>
    rw [Nat.succ_mul] at hroom
    rcases hpixels x (Nat.le_refl x) (by omega) with ⟨x0, x1, hcell, haverage⟩
    have hfirst : out + kPackedPixelBytes ≤ dst.length := by omega
    have hlength : (dst.take out ++ [f x 0, f x 1, f x 2, f x 3]).length =
        out + kPackedPixelBytes := by
      rw [List.length_append, List.length_take, Nat.min_eq_left (by omega)]
      rfl
    have hfront : ∀ rest, (dst.take out ++ [f x 0, f x 1, f x 2, f x 3] ++ rest).take
        (out + kPackedPixelBytes) = dst.take out ++ [f x 0, f x 1, f x 2, f x 3] := by
      intro rest
      rw [← hlength, List.take_left]
    have hback : (dst.take out ++ [f x 0, f x 1, f x 2, f x 3] ++
        dst.drop (out + kPackedPixelBytes)).drop
          (out + kPackedPixelBytes + count * kPackedPixelBytes) =
        dst.drop (out + (count + 1) * kPackedPixelBytes) := by
      rw [← List.drop_drop, ← hlength, List.drop_left, hlength, List.drop_drop, Nat.succ_mul]
      congr 1
      omega
    rw [scaleRow, hcell]
    simp only [Option.bind_eq_bind, Option.bind_some, haverage, storePixel_ofBytes hfirst]
    rw [ih (fun i hi hlast => hpixels i (by omega) (by omega)), hfront, hback, List.range'_succ,
      List.flatMap_cons, List.append_assoc (dst.take out)]
    rw [List.length_append, hlength, List.length_drop]
    omega

/-- The rows do not overlap, so each keeps what was written to it. -/
theorem scaleRows_eq {s : RgbDownscaler} {dstStride : UInt32} {f : Nat → Nat → Nat → UInt8}
    {rows y : Nat} {dst : Bytes}
    (hpixels : ∀ r, y ≤ r → r < y + rows → ∃ y0 y1, cell s.yStart r = some (y0, y1) ∧
      ∀ i < s.dstW.toNat, ∃ x0 x1, cell s.xStart i = some (x0, x1) ∧
        averagePixels src srcStride x0 x1 y0 y1 =
          some (ofBytes (f r i 0) (f r i 1) (f r i 2) (f r i 3)))
    (hstride : s.dstW.toNat * kPackedPixelBytes ≤ dstStride.toNat)
    (hroom : ∀ r < y + rows,
      r * dstStride.toNat + s.dstW.toNat * kPackedPixelBytes ≤ dst.length) :
    ∃ out, scaleRows s src srcStride dstStride rows y dst = some out ∧ out.length = dst.length ∧
      (∀ j < y * dstStride.toNat, out[j]? = dst[j]?) ∧
      ∀ r, y ≤ r → r < y + rows → ∀ i < s.dstW.toNat, ∀ c < kPackedPixelBytes,
        out[r * dstStride.toNat + (i * kPackedPixelBytes + c)]? = some (f r i c) := by
  induction rows generalizing y dst with
  | zero => exact ⟨dst, rfl, rfl, fun _ _ => rfl, fun r hr hlast => by omega⟩
  | succ rows ih =>
    rcases hpixels y (Nat.le_refl y) (by omega) with ⟨y0, y1, hcell, hrow⟩
    have hfits := hroom y (by omega)
    have hcells : ∀ i, 0 ≤ i → i < 0 + s.dstW.toNat → ∃ x0 x1, cell s.xStart i = some (x0, x1) ∧
        averagePixels src srcStride x0 x1 y0 y1 =
          some (ofBytes (f y i 0) (f y i 1) (f y i 2) (f y i 3)) :=
      fun i _ hi => hrow i (by omega)
    have hscaled := scaleRow_eq hcells hfits
    have hbytes : (List.range' 0 s.dstW.toNat).flatMap
        (fun i => [f y i 0, f y i 1, f y i 2, f y i 3]) =
        Rows.rows s.dstW.toNat kPackedPixelBytes (f y) := by
      rw [← List.range_eq_range']
      rfl
    rw [hbytes] at hscaled
    have hfront : (dst.take (y * dstStride.toNat)).length = y * dstStride.toNat := by
      rw [List.length_take, Nat.min_eq_left (by omega)]
    generalize hnext : dst.take (y * dstStride.toNat) ++
      Rows.rows s.dstW.toNat kPackedPixelBytes (f y) ++
        dst.drop (y * dstStride.toNat + s.dstW.toNat * kPackedPixelBytes) = dst₁ at hscaled
    have hlength : dst₁.length = dst.length := by
      rw [← hnext, List.length_append, List.length_append, hfront, Rows.length_rows,
        List.length_drop]
      omega
    rcases @ih (y + 1) dst₁ (fun r hr hlast => hpixels r (by omega) (by omega))
      (fun r hr => by rw [hlength]; exact hroom r (by omega)) with ⟨out, hout, hsame, hbefore, hall⟩
    rw [Nat.succ_mul] at hbefore
    refine ⟨out, ?_, hsame.trans hlength, ?_, ?_⟩
    · rw [scaleRows, hcell]
      simp only [Option.bind_eq_bind, Option.bind_some, hscaled]
      exact hout
    · intro j hj
      rw [hbefore j (by omega), ← hnext, List.append_assoc,
        List.getElem?_append_left (by rw [hfront]; exact hj), List.getElem?_take_of_lt hj]
    · intro r hr hlast i hi c hc
      rcases Nat.eq_or_lt_of_le hr with rfl | hlater
      · -- the later rows start behind this one
        have hin : i * kPackedPixelBytes + c < s.dstW.toNat * kPackedPixelBytes := by
          have hmul := Nat.mul_le_mul_right kPackedPixelBytes (Nat.succ_le_of_lt hi)
          rw [Nat.succ_mul] at hmul
          omega
        rw [hbefore _ (by omega), ← hnext, List.append_assoc,
          List.getElem?_append_right (by rw [hfront]; omega), hfront, Nat.add_sub_cancel_left,
          List.getElem?_append_left (by rw [Rows.length_rows]; exact hin),
          Rows.getElem?_rows (f y) hi hc]
      · exact hall r hlater (by omega) i hi c hc

/-! ## What is promised -/

/-- The two ends of the cell of a destination pixel, in both directions. -/
def HasCell (s : RgbDownscaler) (x y : Nat) (x0 x1 y0 y1 : UInt32) : Prop :=
  cell s.xStart x = some (x0, x1) ∧ cell s.yStart y = some (y0, y1)

/-- A source pixel is averaged into a destination pixel. -/
def InCell (s : RgbDownscaler) (x y px py : Nat) : Prop :=
  ∃ x0 x1 y0 y1, s.HasCell x y x0 x1 y0 y1 ∧
    (x0.toNat ≤ px ∧ px < x1.toNat) ∧ (y0.toNat ≤ py ∧ py < y1.toNat)

/-- A buffer with the rows of a picture, each in front of the next. -/
def HoldsPicture (buffer : Bytes) (stride width height : UInt32) : Prop :=
  width.toNat * kPackedPixelBytes ≤ stride.toNat ∧
    ∀ y < height.toNat, y * stride.toNat + width.toNat * kPackedPixelBytes ≤ buffer.length

/-- Neither the sums over a cell nor the number of its pixels wrap. -/
def ExactSums (src : Bytes) (srcStride x0 x1 y0 y1 : UInt32) : Prop :=
  ((x1 - x0) * (y1 - y0)).toNat = (x1.toNat - x0.toNat) * (y1.toNat - y0.toNat) ∧
    ∃ sums, sumPixels src srcStride x0 x1 y0 y1 = some sums ∧
      Adds (sumOf src srcStride x0 x1 y0 y1) {} sums

/-- Each source pixel is averaged into one destination pixel, and only pixels of the source are;
when 255 times the largest cell is below `2 ^ 32`, no sum wraps and each channel of the destination
is the floor of the mean of its cell. -/
structure Averages (s : RgbDownscaler) : Prop where
  partition : ∀ px < s.srcW.toNat, ∀ py < s.srcH.toNat,
    ∃! place : Nat × Nat, (place.1 < s.dstW.toNat ∧ place.2 < s.dstH.toNat) ∧
      s.InCell place.1 place.2 px py
  inside : ∀ x < s.dstW.toNat, ∀ y < s.dstH.toNat, ∀ px py, s.InCell x y px py →
    px < s.srcW.toNat ∧ py < s.srcH.toNat
  means : ∀ src srcStride dst dstStride, HoldsPicture src srcStride s.srcW s.srcH →
    HoldsPicture dst dstStride s.dstW s.dstH →
    (∀ x < s.dstW.toNat, ∀ y < s.dstH.toNat, ∀ x0 x1 y0 y1, s.HasCell x y x0 x1 y0 y1 →
      255 * ((x1.toNat - x0.toNat) * (y1.toNat - y0.toNat)) < 2 ^ 32) →
    ∃ out, s.scale (some src) srcStride (some dst) dstStride = some (some out) ∧
      out.length = dst.length ∧
      ∀ x < s.dstW.toNat, ∀ y < s.dstH.toNat, ∃ x0 x1 y0 y1, s.HasCell x y x0 x1 y0 y1 ∧
        ExactSums src srcStride x0 x1 y0 y1 ∧
        ∀ c < 3, (byteAt out (y * dstStride.toNat + (x * kPackedPixelBytes + c))).toNat =
          meanOf src srcStride x0 x1 y0 y1 c

/-- A downscaler configured for sizes averages every source pixel once. -/
def Downscales (s₀ : RgbDownscaler) (srcW srcH dstW dstH : UInt32) : Prop :=
  ∃ s, s₀.configure srcW srcH dstW dstH = some s ∧ (s.srcW = srcW ∧ s.srcH = srcH) ∧
    (s.dstW = clamped srcW dstW ∧ s.dstH = clamped srcH dstH) ∧ s.Averages

/-! ## When it is kept -/

theorem clamped_le (srcExtent dstExtent : UInt32) : clamped srcExtent dstExtent ≤ srcExtent := by
  unfold clamped
  split
  · exact UInt32.le_refl _
  · next h => exact UInt32.not_lt.mp h

theorem clamped_ne_zero {srcExtent dstExtent : UInt32} (hsrc : srcExtent ≠ 0)
    (hdst : dstExtent ≠ 0) : clamped srcExtent dstExtent ≠ 0 := by
  unfold clamped
  split
  · exact hsrc
  · exact hdst

theorem widestExtent_clamped {srcExtent dstExtent : UInt32} :
    WidestExtent (clamped srcExtent dstExtent) ↔
      srcExtent = 0xFFFFFFFF ∧ dstExtent = 0xFFFFFFFF := by
  have hsrc := srcExtent.toNat_lt
  have hdst := dstExtent.toNat_lt
  have hmax : (0xFFFFFFFF : UInt32).toNat = 2 ^ 32 - 1 := rfl
  unfold WidestExtent clamped
  rw [← UInt32.toNat_inj, ← UInt32.toNat_inj, ← UInt32.toNat_inj, hmax]
  split
  · next hlt =>
    have hlt' := UInt32.lt_iff_toNat_lt.mp hlt
    omega
  · next hge =>
    have hge' := UInt32.le_iff_toNat_le.mp (UInt32.not_lt.mp hge)
    omega

/-- Cells of one direction, with their ends as numbers. -/
theorem cell_toNat {srcExtent dstExtent : UInt32} (hdst : dstExtent ≠ 0)
    (hle : dstExtent ≤ srcExtent) {i : Nat} (hi : i < dstExtent.toNat) {start next : UInt32}
    (h : cell ((List.range (dstExtent.toNat + 1)).map (edgeAt srcExtent dstExtent)) i =
      some (start, next)) :
    start.toNat = edge srcExtent.toNat dstExtent.toNat i ∧
      next.toNat = edge srcExtent.toNat dstExtent.toNat (i + 1) := by
  rw [cell_eq hdst hle hi, Option.some.injEq, Prod.mk.injEq] at h
  rw [← h.1, ← h.2, toNat_edgeAt hdst (Nat.le_of_lt hi), toNat_edgeAt hdst hi]
  exact ⟨rfl, rfl⟩

/-- Edges that are those of the sizes. -/
structure Configured (s : RgbDownscaler) : Prop where
  width : s.dstW ≠ 0
  height : s.dstH ≠ 0
  width_le : s.dstW ≤ s.srcW
  height_le : s.dstH ≤ s.srcH
  xStart_eq : s.xStart = (List.range (s.dstW.toNat + 1)).map (edgeAt s.srcW s.dstW)
  yStart_eq : s.yStart = (List.range (s.dstH.toNat + 1)).map (edgeAt s.srcH s.dstH)

namespace Configured

variable {s : RgbDownscaler}

theorem hasCell (h : Configured s) {x y : Nat} (hx : x < s.dstW.toNat) (hy : y < s.dstH.toNat) :
    s.HasCell x y (edgeAt s.srcW s.dstW x) (edgeAt s.srcW s.dstW (x + 1))
      (edgeAt s.srcH s.dstH y) (edgeAt s.srcH s.dstH (y + 1)) := by
  constructor
  · rw [h.xStart_eq]
    exact cell_eq h.width h.width_le hx
  · rw [h.yStart_eq]
    exact cell_eq h.height h.height_le hy

/-- In the cell means between the edges of both directions. -/
theorem inCell_iff (h : Configured s) {x y px py : Nat} (hx : x < s.dstW.toNat)
    (hy : y < s.dstH.toNat) :
    s.InCell x y px py ↔
      (edge s.srcW.toNat s.dstW.toNat x ≤ px ∧ px < edge s.srcW.toNat s.dstW.toNat (x + 1)) ∧
        (edge s.srcH.toNat s.dstH.toNat y ≤ py ∧ py < edge s.srcH.toNat s.dstH.toNat (y + 1)) := by
  constructor
  · rintro ⟨x0, x1, y0, y1, ⟨hxs, hys⟩, hpx, hpy⟩
    rw [h.xStart_eq] at hxs
    rw [h.yStart_eq] at hys
    rcases cell_toNat h.width h.width_le hx hxs with ⟨hx0, hx1⟩
    rcases cell_toNat h.height h.height_le hy hys with ⟨hy0, hy1⟩
    rw [← hx0, ← hx1, ← hy0, ← hy1]
    exact ⟨hpx, hpy⟩
  · intro hin
    refine ⟨_, _, _, _, h.hasCell hx hy, ?_⟩
    rw [toNat_edgeAt h.width (Nat.le_of_lt hx), toNat_edgeAt h.width hx,
      toNat_edgeAt h.height (Nat.le_of_lt hy), toNat_edgeAt h.height hy]
    exact hin

theorem pos (h : Configured s) : 0 < s.dstW.toNat ∧ 0 < s.dstH.toNat :=
  ⟨Nat.pos_of_ne_zero fun heq => h.width (UInt32.toNat_inj.mp heq),
    Nat.pos_of_ne_zero fun heq => h.height (UInt32.toNat_inj.mp heq)⟩

theorem partition (h : Configured s) {px py : Nat} (hpx : px < s.srcW.toNat)
    (hpy : py < s.srcH.toNat) :
    ∃! place : Nat × Nat, (place.1 < s.dstW.toNat ∧ place.2 < s.dstH.toNat) ∧
      s.InCell place.1 place.2 px py := by
  rcases existsUnique_cell h.pos.1 hpx with ⟨x, ⟨hx, hcellX⟩, honlyX⟩
  rcases existsUnique_cell h.pos.2 hpy with ⟨y, ⟨hy, hcellY⟩, honlyY⟩
  refine ⟨(x, y), ⟨⟨hx, hy⟩, (h.inCell_iff hx hy).mpr ⟨hcellX, hcellY⟩⟩, ?_⟩
  rintro ⟨x', y'⟩ ⟨⟨hx', hy'⟩, hin⟩
  rcases (h.inCell_iff hx' hy').mp hin with ⟨hcellX', hcellY'⟩
  rw [honlyX x' ⟨hx', hcellX'⟩, honlyY y' ⟨hy', hcellY'⟩]

theorem inside (h : Configured s) {x y px py : Nat} (hx : x < s.dstW.toNat)
    (hy : y < s.dstH.toNat) (hin : s.InCell x y px py) :
    px < s.srcW.toNat ∧ py < s.srcH.toNat := by
  rcases (h.inCell_iff hx hy).mp hin with ⟨⟨-, hpx⟩, -, hpy⟩
  exact ⟨Nat.lt_of_lt_of_le hpx (edge_le h.pos.1 hx), Nat.lt_of_lt_of_le hpy (edge_le h.pos.2 hy)⟩

/-- The cells of a picture that the buffer holds. -/
theorem goodCell (h : Configured s) {src : Bytes} {srcStride : UInt32}
    (hsrc : HoldsPicture src srcStride s.srcW s.srcH) {x y : Nat} (hx : x < s.dstW.toNat)
    (hy : y < s.dstH.toNat) {x0 x1 y0 y1 : UInt32} (hcell : s.HasCell x y x0 x1 y0 y1)
    (hsmall : 255 * ((x1.toNat - x0.toNat) * (y1.toNat - y0.toNat)) < 2 ^ 32) :
    GoodCell src srcStride x0 x1 y0 y1 := by
  rcases hcell with ⟨hxs, hys⟩
  rw [h.xStart_eq] at hxs
  rw [h.yStart_eq] at hys
  rcases cell_toNat h.width h.width_le hx hxs with ⟨hx0, hx1⟩
  rcases cell_toNat h.height h.height_le hy hys with ⟨hy0, hy1⟩
  have hx1le : x1.toNat ≤ s.srcW.toNat := hx1 ▸ edge_le h.pos.1 hx
  have hy1le : y1.toNat ≤ s.srcH.toNat := hy1 ▸ edge_le h.pos.2 hy
  constructor
  · rw [UInt32.lt_iff_toNat_lt, hx0, hx1]
    exact edge_lt_succ h.pos.1 (UInt32.le_iff_toNat_le.mp h.width_le) x
  · rw [UInt32.lt_iff_toNat_lt, hy0, hy1]
    exact edge_lt_succ h.pos.2 (UInt32.le_iff_toNat_le.mp h.height_le) y
  · intro row hrow
    exact Nat.le_trans (Nat.add_le_add_left (Nat.mul_le_mul_right _ hx1le) _)
      (hsrc.2 row (by omega))
  · exact hsmall

theorem ready (h : Configured s) : s.ready = true := by
  unfold RgbDownscaler.ready
  rw [Bool.and_eq_true, decide_eq_true_iff, decide_eq_true_iff]
  exact ⟨h.width, h.height⟩

theorem averages (h : Configured s) : s.Averages := by
  constructor
  · exact fun px hpx py hpy => h.partition hpx hpy
  · exact fun x hx y hy px py hin => h.inside hx hy hin
  · intro src srcStride dst dstStride hsrc hdst hsmall
    have hgood : ∀ x < s.dstW.toNat, ∀ y < s.dstH.toNat, GoodCell src srcStride
        (edgeAt s.srcW s.dstW x) (edgeAt s.srcW s.dstW (x + 1))
        (edgeAt s.srcH s.dstH y) (edgeAt s.srcH s.dstH (y + 1)) := by
      intro x hx y hy
      exact h.goodCell hsrc hx hy (h.hasCell hx hy) (hsmall x hx y hy _ _ _ _ (h.hasCell hx hy))
    have hpixels : ∀ r, 0 ≤ r → r < 0 + s.dstH.toNat → ∃ y0 y1, cell s.yStart r = some (y0, y1) ∧
        ∀ i < s.dstW.toNat, ∃ x0 x1, cell s.xStart i = some (x0, x1) ∧
          averagePixels src srcStride x0 x1 y0 y1 = some (ofBytes
            (averageByte src srcStride (edgeAt s.srcW s.dstW i) (edgeAt s.srcW s.dstW (i + 1))
              (edgeAt s.srcH s.dstH r) (edgeAt s.srcH s.dstH (r + 1)) 0)
            (averageByte src srcStride (edgeAt s.srcW s.dstW i) (edgeAt s.srcW s.dstW (i + 1))
              (edgeAt s.srcH s.dstH r) (edgeAt s.srcH s.dstH (r + 1)) 1)
            (averageByte src srcStride (edgeAt s.srcW s.dstW i) (edgeAt s.srcW s.dstW (i + 1))
              (edgeAt s.srcH s.dstH r) (edgeAt s.srcH s.dstH (r + 1)) 2)
            (averageByte src srcStride (edgeAt s.srcW s.dstW i) (edgeAt s.srcW s.dstW (i + 1))
              (edgeAt s.srcH s.dstH r) (edgeAt s.srcH s.dstH (r + 1)) 3)) := by
      intro r _ hr
      rw [Nat.zero_add] at hr
      refine ⟨_, _, (h.hasCell h.pos.1 hr).2, ?_⟩
      intro i hi
      exact ⟨_, _, (h.hasCell hi hr).1, (hgood i hi r hr).averagePixels_eq⟩
    rcases scaleRows_eq hpixels hdst.1 (fun r hr => hdst.2 r (by omega)) with
      ⟨out, hout, hlength, -, hbytes⟩
    refine ⟨out, ?_, hlength, ?_⟩
    · unfold scale
      rw [h.ready]
      exact congrArg (Option.map some) hout
    · intro x hx y hy
      refine ⟨_, _, _, _, h.hasCell hx hy, ⟨(hgood x hx y hy).toNat_count, (hgood x hx y hy).sums⟩, ?_⟩
      intro c hc
      have hbyte := hbytes y (Nat.zero_le y) (by omega) x hx c (Nat.lt_succ_of_lt hc)
      unfold byteAt
      rw [List.getD_eq_getElem?_getD, hbyte, Option.getD_some, averageByte, if_pos hc,
        UInt8.toNat_ofNat', Nat.mod_eq_of_lt (meanOf_lt src srcStride _ _ _ _ c)]

end Configured

theorem configure_eq (s₀ : RgbDownscaler) {srcW srcH dstW dstH : UInt32}
    (hwidth : clamped srcW dstW ≠ 0) (hheight : clamped srcH dstH ≠ 0) :
    s₀.configure srcW srcH dstW dstH =
      (buildEdges s₀.xStart srcW (clamped srcW dstW)).bind fun xStart =>
        (buildEdges s₀.yStart srcH (clamped srcH dstH)).bind fun yStart =>
          some { xStart, yStart, srcW, srcH, dstW := clamped srcW dstW, dstH := clamped srcH dstH } := by
  unfold configure ready
  dsimp only
  rw [decide_eq_true hwidth, decide_eq_true hheight]
  rfl

/-- When `Configure` gives a downscaler that averages every source pixel once: for every pair of
sizes that does not keep an extent of `2 ^ 32 - 1`. -/
theorem downscales_iff (s₀ : RgbDownscaler) {srcW srcH dstW dstH : UInt32} (hsrcW : srcW ≠ 0)
    (hsrcH : srcH ≠ 0) (hdstW : dstW ≠ 0) (hdstH : dstH ≠ 0) :
    Downscales s₀ srcW srcH dstW dstH ↔
      ¬ (srcW = 0xFFFFFFFF ∧ dstW = 0xFFFFFFFF) ∧ ¬ (srcH = 0xFFFFFFFF ∧ dstH = 0xFFFFFFFF) := by
  rw [← widestExtent_clamped, ← widestExtent_clamped]
  have hwidth := clamped_ne_zero hsrcW hdstW
  have hheight := clamped_ne_zero hsrcH hdstH
  have hconfigure := configure_eq s₀ hwidth hheight
  constructor
  · rintro ⟨s, hs, -⟩
    rw [hconfigure] at hs
    rcases Option.bind_eq_some_iff.mp hs with ⟨xStart, hx, hrest⟩
    rcases Option.bind_eq_some_iff.mp hrest with ⟨yStart, hy, -⟩
    constructor
    · intro hwidest
      rw [show clamped srcW dstW = 0xFFFFFFFF from hwidest, buildEdges_widest] at hx
      cases hx
    · intro hwidest
      rw [show clamped srcH dstH = 0xFFFFFFFF from hwidest, buildEdges_widest] at hy
      cases hy
  · rintro ⟨hx, hy⟩
    rw [buildEdges_eq hx, buildEdges_eq hy] at hconfigure
    refine ⟨_, hconfigure, ⟨rfl, rfl⟩, ⟨rfl, rfl⟩, ?_⟩
    exact Configured.averages ⟨hwidth, hheight, clamped_le srcW dstW, clamped_le srcH dstH, rfl, rfl⟩

/-- Three by two pixels, to two by one. -/
theorem downscales_three : Downscales {} 3 2 2 1 :=
  (downscales_iff {} (by decide) (by decide) (by decide) (by decide)).mpr (by decide)

/-- As wide as an extent can be, at the width of the source. -/
theorem not_downscales_widest : ¬ Downscales {} 0xFFFFFFFF 1 0xFFFFFFFF 1 := by
  rintro ⟨s, hs, -⟩
  have hclamped : clamped 0xFFFFFFFF 0xFFFFFFFF = 0xFFFFFFFF := rfl
  rw [configure_eq {} (by decide) (by decide), hclamped, buildEdges_widest] at hs
  cases hs

end RgbDownscaler

end Deskhub
