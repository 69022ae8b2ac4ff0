import Deskhub.Lib.Rows
import Deskhub.Qr.QrReading

/-!
# Data codewords and blocks

The bits that `AppendDataCodewords` writes, and the way back from the interleaved codewords to the
blocks: `blockData` and `blockEcc` find every codeword where `InterleaveBlocks` put it.
-/

namespace Deskhub

namespace Qr

open BitStrings

/-! ## Sizes of a version -/

/-- What the numbers of a version have to do with each other and with the standard's tables. -/
structure Sized (version : Nat) : Prop where
  total : kTotalCodewords.getD version 0 = totalCodewords version
  blocks : 0 < eccBlockCount version
  eccPos : 0 < eccCodewordsPerBlock version
  ecc : eccCodewordsPerBlock version ≤ totalCodewords version / eccBlockCount version
  width : countWidth version = charCountBits version
  header : 4 + charCountBits version ≤ 8 * dataCodewords version
  capacity : dataCapacityBytes version < 2 ^ charCountBits version
  coordinates : alignmentPositions version = kAlignmentCoordinates.getD version []
  size : symbolSize version = sizeOf version

/-- The versions there are. -/
def IsVersion (version : Nat) : Prop := 1 ≤ version ∧ version ≤ 40

instance (version : Nat) : Decidable (IsVersion version) := inferInstanceAs (Decidable (_ ∧ _))

instance (version : Nat) : Decidable (Sized version) :=
  decidable_of_iff
    (kTotalCodewords.getD version 0 = totalCodewords version ∧ 0 < eccBlockCount version ∧
      0 < eccCodewordsPerBlock version ∧
      eccCodewordsPerBlock version ≤ totalCodewords version / eccBlockCount version ∧
      countWidth version = charCountBits version ∧
      4 + charCountBits version ≤ 8 * dataCodewords version ∧
      dataCapacityBytes version < 2 ^ charCountBits version ∧
      alignmentPositions version = kAlignmentCoordinates.getD version [] ∧
      symbolSize version = sizeOf version)
    ⟨fun ⟨h1, h2, h3, h4, h5, h6, h7, h8, h9⟩ => ⟨h1, h2, h3, h4, h5, h6, h7, h8, h9⟩,
      fun h => ⟨h.total, h.blocks, h.eccPos, h.ecc, h.width, h.header, h.capacity, h.coordinates, h.size⟩⟩

theorem forall_version {p : Nat → Prop} (h : ∀ i, i < 40 → p (i + 1)) {version : Nat}
    (hversion : IsVersion version) : p version := by
  rcases hversion with ⟨hmin, hmax⟩
  have hlast := h (version - 1) (by omega)
  rw [Nat.sub_add_cancel hmin] at hlast
  exact hlast

theorem sized {version : Nat} (h : IsVersion version) : Sized version :=
  forall_version (by decide +kernel) h

/-- The version of a text has room for it. -/
theorem chooseVersion_spec {byteCount version : Nat} (h : chooseVersion byteCount = some version) :
    IsVersion version ∧ byteCount ≤ dataCapacityBytes version := by
  unfold chooseVersion at h
  have hroom := List.find?_some h
  have hrange := List.mem_of_find?_eq_some h
  rw [List.mem_range'_1] at hrange
  refine ⟨⟨hrange.1, ?_⟩, of_decide_eq_true hroom⟩
  have hmin : kQrMinVersion = 1 := rfl
  have hmax : kQrMaxVersion = 40 := rfl
  omega

/-- The header and the bytes of a text fit into the data codewords. -/
theorem fits {byteCount version : Nat} (h : chooseVersion byteCount = some version) :
    4 + charCountBits version + 8 * byteCount ≤ 8 * dataCodewords version := by
  rcases chooseVersion_spec h with ⟨hversion, hroom⟩
  have hheader := (sized hversion).header
  unfold dataCapacityBytes kBitsPerCodeword kModeIndicatorBits at hroom
  dsimp only at hroom
  omega

/-! ## The bit writer -/

/-- The bits in a writer: its bytes hold them, and zeros up to the end of the last byte. -/
def Writes (w : BitWriter) (bs : List Bool) : Prop :=
  w.bitCount = bs.length ∧
    ∃ pad, pad < 8 ∧ joined 8 (w.bytes.map UInt8.toNat) = bs ++ List.replicate pad false

theorem writes_empty : Writes {} [] := ⟨rfl, 0, by decide, rfl⟩

/-- At the end of a byte there are no zeros behind the bits. -/
theorem Writes.aligned {w : BitWriter} {bs : List Bool} (h : Writes w bs) (haligned : bs.length % 8 = 0) :
    joined 8 (w.bytes.map UInt8.toNat) = bs := by
  rcases h with ⟨_, pad, hpad, hbits⟩
  have hlength := congrArg List.length hbits
  rw [length_joined, List.length_append, List.length_replicate] at hlength
  have hnone : pad = 0 := by omega
  rw [hbits, hnone, List.replicate_zero, List.append_nil]

/-- A bit set in the last byte. -/
theorem joined_orLast (front : Bytes) (last : UInt8) {r : Nat} (hr : r < 8) :
    joined 8 ((BitWriter.orLast (front ++ [last]) (0x80 >>> UInt8.ofNat r)).map UInt8.toNat) =
      joined 8 (front.map UInt8.toNat) ++ (bits 8 last.toNat).set r true := by
  have hbit : ∀ r, r < 8 → (0x80 >>> UInt8.ofNat r : UInt8).toNat = 2 ^ (7 - r) := by decide
  have horLast : BitWriter.orLast (front ++ [last]) (0x80 >>> UInt8.ofNat r) =
      front ++ [last ||| 0x80 >>> UInt8.ofNat r] := by
    unfold BitWriter.orLast
    rw [List.getLast?_concat]
    exact congrArg (· ++ _) List.dropLast_concat
  have hplace : 8 - 1 - (7 - r) = r := by omega
  rw [horLast, List.map_append, joined_append, List.map_singleton, joined_cons, UInt8.toNat_or,
    hbit r hr, bits_or_two_pow (by omega), hplace]
  exact congrArg (_ ++ ·) (List.append_nil _)

/-- The byte that the next bit goes to: a new one where the last one is full. -/
theorem Writes.ready {w : BitWriter} {bs : List Bool} (h : Writes w bs) :
    ∃ front last pad,
      (if w.bitCount % kBitsPerCodeword = 0 then w.bytes ++ [0] else w.bytes) = front ++ [last] ∧
      bs.length = 8 * front.length + bs.length % 8 ∧ pad < 8 ∧
      joined 8 ((front ++ [last]).map UInt8.toNat) = bs ++ List.replicate (pad + 1) false := by
  have hcount : w.bitCount % kBitsPerCodeword = bs.length % 8 := by rw [h.1]; rfl
  rw [hcount]
  by_cases haligned : bs.length % 8 = 0
  · have hbits := h.aligned haligned
    have hlength := congrArg List.length hbits
    rw [length_joined, List.length_map] at hlength
    refine ⟨w.bytes, 0, 7, if_pos haligned, by omega, by decide, ?_⟩
    rw [List.map_append, joined_append, hbits]
    rfl
  · rcases h with ⟨_, pad, hpad, hbits⟩
    have hlength := congrArg List.length hbits
    rw [length_joined, List.length_map, List.length_append, List.length_replicate] at hlength
    have hne : w.bytes ≠ [] := by
      intro hnil
      rw [hnil, List.length_nil] at hlength
      omega
    have hsplit := List.dropLast_concat_getLast hne
    have hfront : w.bytes.dropLast.length = w.bytes.length - 1 := List.length_dropLast
    refine ⟨w.bytes.dropLast, w.bytes.getLast hne, pad - 1, ?_, by omega, by omega, ?_⟩
    · rw [if_neg haligned, hsplit]
    · have hpads : pad - 1 + 1 = pad := by omega
      rw [hsplit, hbits, hpads]

theorem Writes.appendBit {w : BitWriter} {bs : List Bool} (h : Writes w bs) (one : Bool) :
    Writes (w.appendBit one) (bs ++ [one]) := by
  rcases h.ready with ⟨front, last, pad, hbytes, hlength, hpad, hbits⟩
  have hcount : w.bitCount % kBitsPerCodeword = bs.length % 8 := by rw [h.1]; rfl
  have hr : bs.length % 8 < 8 := Nat.mod_lt _ (by decide)
  unfold BitWriter.appendBit
  dsimp only
  rw [hbytes, hcount]
  refine ⟨?_, pad, hpad, ?_⟩
  · rw [h.1, List.length_append, List.length_singleton]
  · rw [List.append_assoc]
    cases one with
    | false =>
      rw [if_neg Bool.false_ne_true, hbits]
      rfl
    | true =>
      -- the zero behind the bits is the one that is set
      have hset : (joined 8 ((front ++ [last]).map UInt8.toNat)).set bs.length true =
          (bs ++ List.replicate (pad + 1) false).set bs.length true := by rw [hbits]
      have hplace : bs.length - 8 * front.length = bs.length % 8 := by omega
      rw [List.set_append_right _ _ (Nat.le_refl _), Nat.sub_self, List.map_append, joined_append,
        List.set_append_right _ _ (by rw [length_joined, List.length_map]; omega), length_joined,
        List.length_map, hplace, List.map_singleton, joined_cons] at hset
      have hnone : joined 8 [] = [] := rfl
      rw [hnone, List.append_nil] at hset
      rw [if_pos rfl, joined_orLast front last hr, hset]
      rfl

theorem Writes.append {w : BitWriter} {bs : List Bool} (h : Writes w bs) (value width : Nat) :
    Writes (w.append value width) (bs ++ bits width value) := by
  induction width generalizing w bs with
  | zero =>
    rw [bits, List.append_nil]
    exact h
  | succ width ih =>
    have hrest := ih (h.appendBit (value.testBit width))
    rw [List.append_assoc] at hrest
    exact hrest

theorem Writes.appendBytes {w : BitWriter} {bs : List Bool} (h : Writes w bs) (bytes : Bytes) :
    Writes (bytes.foldl (fun writer c => writer.append c.toNat kBitsPerCodeword) w)
      (bs ++ joined 8 (bytes.map UInt8.toNat)) := by
  induction bytes generalizing w bs with
  | nil =>
    rw [List.map_nil]
    exact (List.append_nil bs).symm ▸ h
  | cons byte bytes ih =>
    have hrest := ih (h.append byte.toNat kBitsPerCodeword)
    rw [List.append_assoc] at hrest
    exact hrest

theorem Writes.fillByte {w : BitWriter} {bs : List Bool} (h : Writes w bs) (fuel : Nat)
    (hfuel : (bs.length + 7) / 8 * 8 - bs.length ≤ fuel) :
    ∃ rest, Writes (fillByte fuel w) (bs ++ rest) ∧ (bs ++ rest).length = (bs.length + 7) / 8 * 8 := by
  induction fuel generalizing w bs with
  | zero =>
    refine ⟨[], ?_, ?_⟩
    · rw [List.append_nil]
      exact h
    · rw [List.append_nil]
      omega
  | succ fuel ih =>
    have hcount : w.bitCount % kBitsPerCodeword = bs.length % 8 := by rw [h.1]; rfl
    rw [Qr.fillByte, hcount]
    by_cases haligned : bs.length % 8 = 0
    · rw [if_neg (not_not.mpr haligned)]
      refine ⟨[], ?_, ?_⟩
      · rw [List.append_nil]
        exact h
      · rw [List.append_nil]
        omega
    · rw [if_pos haligned]
      have hlonger : (bs ++ [false]).length = bs.length + 1 := List.length_append
      rcases ih (h.appendBit false) (by rw [hlonger]; omega) with ⟨rest, hwrites, hlength⟩
      refine ⟨false :: rest, ?_, ?_⟩
      · rw [← List.singleton_append, ← List.append_assoc]
        exact hwrites
      · rw [← List.singleton_append, ← List.append_assoc, hlength, hlonger]
        omega

theorem Writes.padTo {w : BitWriter} {bs : List Bool} (h : Writes w bs) (count fuel : Nat)
    (haligned : bs.length % 8 = 0) (hroom : bs.length ≤ 8 * count)
    (hfuel : 8 * count ≤ bs.length + 8 * fuel) (padIndex : Nat) :
    ∃ rest, Writes (padTo (count * kBitsPerCodeword) fuel padIndex w) (bs ++ rest) ∧
      (bs ++ rest).length = 8 * count := by
  induction fuel generalizing w bs padIndex with
  | zero =>
    refine ⟨[], ?_, ?_⟩
    · rw [List.append_nil]
      exact h
    · rw [List.append_nil]
      omega
  | succ fuel ih =>
    have hcapacity : count * kBitsPerCodeword = 8 * count := Nat.mul_comm count 8
    rw [Qr.padTo, h.1, hcapacity]
    rw [hcapacity] at ih
    by_cases hshort : bs.length < 8 * count
    · rw [if_pos hshort]
      have hnext := h.append (kPadCodewords.getD padIndex 0) kBitsPerCodeword
      have hlonger : (bs ++ bits kBitsPerCodeword (kPadCodewords.getD padIndex 0)).length = bs.length + 8 := by
        rw [List.length_append, length_bits]
        rfl
      rcases ih hnext (by omega) (by omega) (by omega) _ with ⟨rest, hwrites, hlength⟩
      refine ⟨bits kBitsPerCodeword (kPadCodewords.getD padIndex 0) ++ rest, ?_, ?_⟩
      · rw [← List.append_assoc]
        exact hwrites
      · rw [← List.append_assoc, hlength]
    · rw [if_neg hshort]
      refine ⟨[], ?_, ?_⟩
      · rw [List.append_nil]
        exact h
      · rw [List.append_nil]
        omega

/-- The terminator, the rest of its byte and the padding fill the data part up. -/
theorem Writes.filled {w : BitWriter} {bs : List Bool} (h : Writes w bs) (count terminatorBits : Nat)
    (hroom : bs.length + terminatorBits ≤ 8 * count) :
    ∃ rest, Writes (Qr.padTo (count * kBitsPerCodeword) count 0
        (Qr.fillByte kBitsPerCodeword (w.append 0 terminatorBits))) (bs ++ rest) ∧
      (bs ++ rest).length = 8 * count := by
  have hended := h.append 0 terminatorBits
  have hlength : (bs ++ bits terminatorBits 0).length = bs.length + terminatorBits := by
    rw [List.length_append, length_bits]
  have hturns : kBitsPerCodeword = 8 := rfl
  rcases hended.fillByte kBitsPerCodeword (by omega) with ⟨fill, hfilled, hfillLength⟩
  rw [hlength] at hfillLength
  rcases hfilled.padTo count count (by omega) (by omega) (by omega) 0 with
    ⟨pads, hpadded, hpadLength⟩
  refine ⟨bits terminatorBits 0 ++ fill ++ pads, ?_, ?_⟩
  · rw [← List.append_assoc, ← List.append_assoc]
    exact hpadded
  · rw [← List.append_assoc, ← List.append_assoc]
    exact hpadLength

/-- The data part: the indicator of the byte mode, the count, the bytes, and what fills it up. -/
theorem appendDataCodewords_spec {text : Bytes} {version : Nat}
    (hversion : chooseVersion text.length = some version) :
    (∃ rest, joined 8 ((appendDataCodewords text version).map UInt8.toNat) =
        bits 4 4 ++ bits (charCountBits version) text.length ++ joined 8 (text.map UInt8.toNat) ++ rest) ∧
      (appendDataCodewords text version).length = dataCodewords version := by
  have hfits := fits hversion
  have hcapacity : dataCodewords version * kBitsPerCodeword = 8 * dataCodewords version :=
    Nat.mul_comm _ 8
  have htext := ((writes_empty.append kByteModeIndicator kModeIndicatorBits).append text.length
    (charCountBits version)).appendBytes text
  rw [List.nil_append] at htext
  have hlength : (bits kModeIndicatorBits kByteModeIndicator ++ bits (charCountBits version) text.length ++
      joined 8 (text.map UInt8.toNat)).length = 4 + charCountBits version + 8 * text.length := by
    rw [List.length_append, List.length_append, length_bits, length_bits, length_joined, List.length_map]
    rfl
  unfold appendDataCodewords
  dsimp only
  rw [htext.1, hlength, hcapacity]
  have hterminator : min kMaxTerminatorBits (8 * dataCodewords version -
      (4 + charCountBits version + 8 * text.length)) ≤
      8 * dataCodewords version - (4 + charCountBits version + 8 * text.length) := Nat.min_le_right _ _
  rcases htext.filled (dataCodewords version)
    (min kMaxTerminatorBits (8 * dataCodewords version -
      (4 + charCountBits version + 8 * text.length))) (by omega) with ⟨rest, hwrites, hfull⟩
  rw [hcapacity] at hwrites
  have hbits := hwrites.aligned (by omega)
  refine ⟨⟨rest, hbits⟩, ?_⟩
  have hcodewords := congrArg List.length hbits
  rw [length_joined, List.length_map, hfull] at hcodewords
  exact Nat.eq_of_mul_eq_mul_left (by decide) hcodewords

/-! ## Interleaving -/

section Interleaving

variable (s L : Nat) (data : Bytes)

/-- The data of block `j`, where the blocks from `s` on take one codeword more. -/
def pieceOf (j : Nat) : Bytes := (data.drop (j * L + (j - s))).take (L + if j < s then 0 else 1)

/-- Block `j` as `InterleaveBlocks` keeps it. -/
def encodedBlock (generator : Bytes) (j : Nat) : Bytes :=
  pieceOf s L data j ++ (if j < s then [0] else []) ++
    reedSolomonRemainder (pieceOf s L data j) generator

theorem piece_next (j : Nat) :
    j * L + (j - s) + (L + if j < s then 0 else 1) = (j + 1) * L + (j + 1 - s) := by
  rw [Nat.succ_mul]
  by_cases hshort : j < s
  · rw [if_pos hshort]
    omega
  · rw [if_neg hshort]
    omega

theorem blocksFrom_eq (generator : Bytes) (count i : Nat) :
    blocksFrom s L generator count i (data.drop (i * L + (i - s))) =
      (List.range count).map fun j => encodedBlock s L data generator (i + j) := by
  induction count generalizing i with
  | zero => rfl
  | succ count ih =>
    rw [blocksFrom, List.drop_drop, piece_next, ih, List.range_succ_eq_map, List.map_cons,
      List.map_map]
    congr 1
    apply List.map_congr_left
    intro j _
    rw [Function.comp_apply, Nat.succ_eq_add_one, Nat.add_right_comm, Nat.add_assoc]

theorem length_pieceOf {n : Nat} (hlength : data.length = n * L + (n - s)) {j : Nat} (hj : j < n) :
    (pieceOf s L data j).length = L + if j < s then 0 else 1 := by
  have hnext := piece_next s L j
  have hrows : (j + 1) * L ≤ n * L := Nat.mul_le_mul_right L hj
  unfold pieceOf
  rw [List.length_take, List.length_drop, hlength]
  omega

/-- The pieces up to a block are the data up to its end. -/
theorem flatMap_pieceOf (m : Nat) :
    (List.range m).flatMap (pieceOf s L data) = data.take (m * L + (m - s)) := by
  induction m with
  | zero => rw [Nat.zero_mul, Nat.zero_sub, List.take_zero]; rfl
  | succ m ih =>
    rw [List.range_succ, List.flatMap_append, ih, List.flatMap_singleton, ← piece_next]
    exact List.take_add.symm

/-- The rows as the loops of `InterleaveBlocks` write them: the one at `L` leaves the short blocks
out. -/
theorem flatMap_rows {α : Type} {n : Nat} (hs : s ≤ n) (e : Nat) (f : Nat → Nat → α) :
    ((List.range (L + 1 + e)).flatMap fun i => (List.range n).flatMap fun j =>
        if i = L ∧ j < s then [] else [f i j]) =
      Rows.rows L n f ++ (List.range (n - s)).map (fun j => f L (s + j)) ++
        Rows.rows e n fun i => f (L + 1 + i) := by
  have hrow : ∀ i, i ≠ L → ((List.range n).flatMap fun j => if i = L ∧ j < s then [] else [f i j]) =
      (List.range n).map (f i) := by
    intro i hi
    rw [List.map_eq_flatMap]
    apply List.flatMap_congr
    intro j _
    rw [if_neg fun h => hi h.1]
  have hshort : ((List.range n).flatMap fun j => if L = L ∧ j < s then [] else [f L j]) =
      (List.range (n - s)).map fun j => f L (s + j) := by
    have hn : n = s + (n - s) := by omega
    have hnone : ((List.range s).flatMap fun j => if L = L ∧ j < s then [] else [f L j]) = [] := by
      rw [List.flatMap_eq_nil_iff]
      intro j hj
      rw [if_pos ⟨rfl, List.mem_range.mp hj⟩]
    conv_lhs => rw [hn, List.range_add, List.flatMap_append, hnone, List.nil_append, List.flatMap_map]
    rw [List.map_eq_flatMap]
    apply List.flatMap_congr
    intro j _
    rw [if_neg fun h => absurd h.2 (by omega)]
  rw [List.range_add, List.flatMap_append, List.range_succ, List.flatMap_append, List.flatMap_singleton,
    hshort, List.flatMap_map]
  unfold Rows.rows
  congr 1
  · congr 1
    apply List.flatMap_congr
    intro i hi
    rw [List.mem_range] at hi
    exact hrow i (by omega)
  · apply List.flatMap_congr
    intro i _
    exact hrow (L + 1 + i) (by omega)

end Interleaving

/-- A list from its entries. -/
theorem map_byteAt (p : Bytes) : (List.range p.length).map (byteAt p) = p := by
  apply List.ext_getElem
  · rw [List.length_map, List.length_range]
  · intro i h1 h2
    rw [List.getElem_map, List.getElem_range]
    unfold byteAt
    rw [List.getD_eq_getElem p 0 h2]

/-- The data of block `j` of a symbol. -/
def versionPiece (version : Nat) (data : Bytes) (j : Nat) : Bytes :=
  pieceOf (readShortBlocks version) (readShortLength version) data j

/-- Block `j` of a symbol as `InterleaveBlocks` keeps it. -/
def versionBlock (version : Nat) (data : Bytes) (j : Nat) : Bytes :=
  encodedBlock (readShortBlocks version) (readShortLength version) data
    (reedSolomonGenerator (eccCodewordsPerBlock version)) j

theorem readShortBlocks_le (version : Nat) : readShortBlocks version ≤ eccBlockCount version :=
  Nat.sub_le ..

section Version

variable {version : Nat} (hversion : IsVersion version)

include hversion

/-- The data fill the short blocks, and the long ones with a codeword more. -/
theorem dataCodewords_eq : dataCodewords version =
    eccBlockCount version * readShortLength version + (eccBlockCount version - readShortBlocks version) := by
  have h := sized hversion
  have hdivide := Nat.div_add_mod (totalCodewords version) (eccBlockCount version)
  have hmod := Nat.mod_lt (totalCodewords version) h.blocks
  have hecc := h.ecc
  unfold dataCodewords eccCodewords readShortLength readShortBlocks
  rw [h.total]
  obtain ⟨L, hL⟩ : ∃ L, totalCodewords version / eccBlockCount version = eccCodewordsPerBlock version + L :=
    ⟨_, (Nat.add_sub_of_le hecc).symm⟩
  rw [hL, Nat.mul_add, Nat.mul_comm] at hdivide
  rw [hL, Nat.add_sub_cancel_left]
  omega

theorem totalCodewords_eq : totalCodewords version =
    dataCodewords version + eccCodewordsPerBlock version * eccBlockCount version := by
  have h := sized hversion
  have hroom : eccCodewordsPerBlock version * eccBlockCount version ≤ totalCodewords version :=
    (Nat.le_div_iff_mul_le h.blocks).mp h.ecc
  unfold dataCodewords eccCodewords
  omega

variable {data : Bytes} (hdata : data.length = dataCodewords version)

include hdata

theorem length_versionPiece {j : Nat} (hj : j < eccBlockCount version) :
    (versionPiece version data j).length =
      readShortLength version + if j < readShortBlocks version then 0 else 1 := by
  have hlength := dataCodewords_eq hversion
  rw [← hdata] at hlength
  exact length_pieceOf _ _ data hlength hj

theorem flatMap_versionPiece : (List.range (eccBlockCount version)).flatMap (versionPiece version data) = data := by
  have hlength := dataCodewords_eq hversion
  rw [← hdata] at hlength
  unfold versionPiece
  rw [flatMap_pieceOf, ← hlength, List.take_length]

theorem length_versionBlock {j : Nat} (hj : j < eccBlockCount version) :
    (versionBlock version data j).length =
      readShortLength version + 1 + eccCodewordsPerBlock version := by
  have hpiece := length_versionPiece hversion hdata hj
  unfold versionPiece at hpiece
  unfold versionBlock encodedBlock
  rw [List.length_append, List.length_append, hpiece, length_reedSolomonRemainder (sized hversion).eccPos]
  by_cases hshort : j < readShortBlocks version
  · rw [if_pos hshort, if_pos hshort, List.length_singleton]
  · rw [if_neg hshort, if_neg hshort, List.length_nil]

theorem interleaveBlocks_eq : interleaveBlocks data version =
    Rows.rows (readShortLength version) (eccBlockCount version)
      (fun i j => byteAt (versionBlock version data j) i) ++
    (List.range (eccBlockCount version - readShortBlocks version)).map
      (fun j => byteAt (versionBlock version data (readShortBlocks version + j)) (readShortLength version)) ++
    Rows.rows (eccCodewordsPerBlock version) (eccBlockCount version)
      (fun i j => byteAt (versionBlock version data j) (readShortLength version + 1 + i)) := by
  have h := sized hversion
  have hshort : eccBlockCount version - totalCodewords version % eccBlockCount version =
      readShortBlocks version := by
    unfold readShortBlocks
    rw [h.total]
  have hlength : totalCodewords version / eccBlockCount version - eccCodewordsPerBlock version =
      readShortLength version := by
    unfold readShortLength
    rw [h.total]
  have hblocks := blocksFrom_eq (readShortBlocks version) (readShortLength version) data
    (reedSolomonGenerator (eccCodewordsPerBlock version)) (eccBlockCount version) 0
  rw [Nat.zero_mul, Nat.zero_sub, List.drop_zero] at hblocks
  have hblock : ∀ j, j < eccBlockCount version → (blocksFrom (readShortBlocks version)
      (readShortLength version) (reedSolomonGenerator (eccCodewordsPerBlock version))
      (eccBlockCount version) 0 data).getD j [] = versionBlock version data j := by
    intro j hj
    rw [hblocks, List.getD_eq_getElem?_getD, List.getElem?_map, List.getElem?_range hj, Option.map_some,
      Option.getD_some, Nat.zero_add]
    rfl
  rw [← flatMap_rows _ _ (readShortBlocks_le version)]
  unfold interleaveBlocks
  dsimp only
  rw [hshort, hlength, hblock 0 h.blocks, length_versionBlock hversion hdata h.blocks]
  apply List.flatMap_congr
  intro i _
  apply List.flatMap_congr
  intro j hj
  rw [hblock j (List.mem_range.mp hj)]

theorem length_interleaveBlocks : (interleaveBlocks data version).length = totalCodewords version := by
  rw [interleaveBlocks_eq hversion hdata, List.length_append, List.length_append, Rows.length_rows,
    Rows.length_rows, List.length_map, List.length_range, totalCodewords_eq hversion,
    dataCodewords_eq hversion, Nat.mul_comm (readShortLength version)]

/-! ### The way back -/

theorem byteAt_data {i j : Nat} (hi : i < readShortLength version) (hj : j < eccBlockCount version) :
    byteAt (interleaveBlocks data version) (i * eccBlockCount version + j) =
      byteAt (versionBlock version data j) i := by
  have hentry := Rows.getElem?_rows (fun i j => byteAt (versionBlock version data j) i) hi hj
  have hin := (List.getElem?_eq_some_iff.mp hentry).1
  unfold byteAt
  rw [interleaveBlocks_eq hversion hdata, List.append_assoc, List.getD_append _ _ _ _ hin,
    List.getD_eq_getElem?_getD, hentry]
  rfl

theorem byteAt_last {j : Nat} (hlong : readShortBlocks version ≤ j) (hj : j < eccBlockCount version) :
    byteAt (interleaveBlocks data version)
        (readShortLength version * eccBlockCount version + (j - readShortBlocks version)) =
      byteAt (versionBlock version data j) (readShortLength version) := by
  have hplace : readShortBlocks version + (j - readShortBlocks version) = j := by omega
  unfold byteAt
  rw [interleaveBlocks_eq hversion hdata, List.append_assoc,
    List.getD_append_right _ _ _ _ (by rw [Rows.length_rows]; omega), Rows.length_rows,
    Nat.add_sub_cancel_left, List.getD_append _ _ _ _ (by rw [List.length_map, List.length_range]; omega),
    List.getD_eq_getElem?_getD, List.getElem?_map, List.getElem?_range (by omega), Option.map_some, hplace]
  rfl

theorem byteAt_ecc {i j : Nat} (hi : i < eccCodewordsPerBlock version) (hj : j < eccBlockCount version) :
    byteAt (interleaveBlocks data version) (dataCodewords version + (i * eccBlockCount version + j)) =
      byteAt (versionBlock version data j) (readShortLength version + 1 + i) := by
  have hentry := Rows.getElem?_rows
    (fun i j => byteAt (versionBlock version data j) (readShortLength version + 1 + i)) hi hj
  have hbefore : (Rows.rows (readShortLength version) (eccBlockCount version)
      (fun i j => byteAt (versionBlock version data j) i) ++
      (List.range (eccBlockCount version - readShortBlocks version)).map (fun j => byteAt
        (versionBlock version data (readShortBlocks version + j)) (readShortLength version))).length =
      dataCodewords version := by
    rw [List.length_append, Rows.length_rows, List.length_map, List.length_range,
      dataCodewords_eq hversion, Nat.mul_comm]
  unfold byteAt
  rw [interleaveBlocks_eq hversion hdata, List.getD_append_right _ _ _ _ (by rw [hbefore]; omega), hbefore,
    Nat.add_sub_cancel_left, List.getD_eq_getElem?_getD, hentry]
  rfl

theorem blockData_interleaveBlocks {j : Nat} (hj : j < eccBlockCount version) :
    blockData version (interleaveBlocks data version) j = versionPiece version data j := by
  have hlength := length_versionPiece hversion hdata hj
  have hkept : ∀ i, i < (versionPiece version data j).length →
      byteAt (versionBlock version data j) i = byteAt (versionPiece version data j) i := by
    intro i hi
    unfold byteAt versionBlock encodedBlock
    rw [List.append_assoc]
    exact List.getD_append _ _ _ _ hi
  have hrows : ((List.range (readShortLength version)).map fun i =>
      byteAt (interleaveBlocks data version) (i * eccBlockCount version + j)) =
      (List.range (readShortLength version)).map (byteAt (versionPiece version data j)) := by
    apply List.map_congr_left
    intro i hi
    rw [List.mem_range] at hi
    rw [byteAt_data hversion hdata hi hj, hkept i (by omega)]
  rw [← map_byteAt (versionPiece version data j), hlength]
  unfold blockData
  rw [hrows]
  by_cases hshort : j < readShortBlocks version
  · rw [if_pos hshort, if_pos hshort, List.append_nil, Nat.add_zero]
  · rw [if_neg hshort] at hlength
    rw [if_neg hshort, if_neg hshort, byteAt_last hversion hdata (not_lt.mp hshort) hj,
      hkept _ (by omega), List.range_succ, List.map_append, List.map_singleton]

theorem blockEcc_interleaveBlocks {j : Nat} (hj : j < eccBlockCount version) :
    blockEcc version (interleaveBlocks data version) j =
      reedSolomonRemainder (versionPiece version data j)
        (reedSolomonGenerator (eccCodewordsPerBlock version)) := by
  have h := sized hversion
  have hecc := length_reedSolomonRemainder h.eccPos (versionPiece version data j)
  have hdataLength : totalCodewords version - eccCodewordsPerBlock version * eccBlockCount version =
      dataCodewords version := rfl
  rw [← map_byteAt (reedSolomonRemainder _ _), hecc]
  unfold blockEcc
  apply List.map_congr_left
  intro i hi
  rw [List.mem_range] at hi
  rw [h.total, hdataLength, byteAt_ecc hversion hdata hi hj]
  have hfront : (versionPiece version data j ++
      (if j < readShortBlocks version then [0] else [])).length = readShortLength version + 1 := by
    rw [List.length_append, length_versionPiece hversion hdata hj]
    by_cases hshort : j < readShortBlocks version
    · rw [if_pos hshort, if_pos hshort, List.length_singleton]
    · rw [if_neg hshort, if_neg hshort, List.length_nil]
  unfold versionPiece at hfront
  unfold byteAt versionBlock encodedBlock versionPiece
  rw [List.getD_append_right _ _ _ _ (by rw [hfront]; omega), hfront, Nat.add_sub_cancel_left]

/-- The data parts of the blocks give the data back. -/
theorem dataPart_interleaveBlocks : dataPart version (interleaveBlocks data version) = data := by
  unfold dataPart
  rw [← flatMap_versionPiece hversion hdata]
  apply List.flatMap_congr
  intro j hj
  rw [flatMap_versionPiece hversion hdata, blockData_interleaveBlocks hversion hdata (List.mem_range.mp hj)]

/-- Every block read vanishes where it has to. -/
theorem blockAt_interleaveBlocks {j k : Nat} (hj : j < eccBlockCount version)
    (hk : k < eccCodewordsPerBlock version) :
    blockAt (gfTwo ^ k) (blockData version (interleaveBlocks data version) j ++
      blockEcc version (interleaveBlocks data version) j) = 0 := by
  rw [blockData_interleaveBlocks hversion hdata hj, blockEcc_interleaveBlocks hversion hdata hj]
  exact blockAt_encoded hk _

end Version

/-! ## The text -/

/-- Codewords are read back from their bits. -/
theorem codewordsOf_joined (bytes : Bytes) (rest : List Bool) :
    codewordsOf bytes.length (joined 8 (bytes.map UInt8.toNat) ++ rest) = bytes := by
  induction bytes with
  | nil => rfl
  | cons byte bytes ih =>
    have hbyte : ofBits (bits 8 byte.toNat) = byte.toNat := by
      rw [ofBits_bits]
      exact Nat.mod_eq_of_lt (UInt8.toNat_lt byte)
    rw [List.map_cons, joined_cons, List.length_cons, codewordsOf, List.append_assoc,
      List.take_left' (length_bits 8 _), List.drop_left' (length_bits 8 _), ih, hbyte, UInt8.ofNat_toNat]

/-- A data part that begins with a text is read as that text. -/
theorem readText_of_bits {data text : Bytes} {version : Nat} {rest : List Bool}
    (hbits : joined 8 (data.map UInt8.toNat) =
      bits 4 4 ++ bits (countWidth version) text.length ++ joined 8 (text.map UInt8.toNat) ++ rest)
    (hcount : text.length < 2 ^ countWidth version) : readText version data = some text := by
  rw [List.append_assoc, List.append_assoc] at hbits
  have hmode : ofBits (bits 4 4) = 4 := ofBits_bits 4 4
  have hlength : ofBits (bits (countWidth version) text.length) = text.length := by
    rw [ofBits_bits, Nat.mod_eq_of_lt hcount]
  have hbody : (bits 4 4 ++ (bits (countWidth version) text.length ++
      (joined 8 (text.map UInt8.toNat) ++ rest))).drop (4 + countWidth version) =
      joined 8 (text.map UInt8.toNat) ++ rest := by
    rw [← List.drop_drop, List.drop_left' (length_bits 4 4), List.drop_left' (length_bits _ _)]
  unfold readText
  dsimp only
  rw [hbits, List.take_left' (length_bits 4 4), List.drop_left' (length_bits 4 4),
    List.take_left' (length_bits _ _), hmode, hlength, hbody, codewordsOf_joined, if_pos]
  refine ⟨rfl, ?_⟩
  rw [List.length_append, List.length_append, List.length_append, length_bits, length_bits, length_joined,
    List.length_map]
  omega

end Qr

end Deskhub
