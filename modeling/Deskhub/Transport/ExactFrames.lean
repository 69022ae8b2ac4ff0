import Deskhub.Transport.Packetizer
import Deskhub.Transport.ReassemblerSteps

/-!
# Frames arrive exactly or not at all

Whatever subset of a frame's datagrams arrives, in whatever order and how often,
a pending frame holds pieces of the sent frame only: those that came, and those
that a parity block gave back. A frame is returned when all pieces are in place,
and then it is the sent frame.
-/

namespace Deskhub

open OrdMap Xor

/-- The call a datagram of the video channel makes, as `ScreenClient::OnDatagram` does. -/
def ReassemblerOp.ofDatagram (datagram : Bytes) (nowUs : UInt64) : Option ReassemblerOp :=
  match parseCommonHeader datagram with
  | none => none
  | some h =>
      if h.chan ≠ .video then none
      else if h.type = .fecPacket then
        (parseFecPacket h (payloadOf datagram)).map (fun v => .pushFec v nowUs)
      else (parseVideoPacket h (payloadOf datagram)).map (fun v => .push v nowUs)

/-- The packets of this call come from one of the frames that were sent, each with
the packetizer as it was then. The other calls are free. -/
def Arrives (sent : List (Packetizer × SentFrame)) (op : ReassemblerOp) : Prop :=
  match op with
  | .push _ _ | .pushFec _ _ =>
      ∃ x ∈ sent, ∃ d ∈ (x.1.sendFrame x.2).1, ∃ nowUs, ReassemblerOp.ofDatagram d nowUs = some op
  | _ => True

/-! ## What arrives -/

/-- A video packet of the frame `f`. -/
structure PieceOf (f : SentFrame) (pkt : VideoPacketView) (i : Nat) : Prop where
  lt : i < packetCount f.nal
  small : packetCount f.nal ≤ 0xFFFF
  hdr : pkt.hdr =
    ⟨f.frameId, f.timestampUs, UInt16.ofNat i, UInt16.ofNat (packetCount f.nal)⟩
  idr : pkt.idr = f.idr
  payload : pkt.payload = piece f.nal i

/-- A parity packet of the frame `f`. -/
structure ParityOf (f : SentFrame) (pkt : FecPacketView) (g : Nat) : Prop where
  lt : g < numGroups (packetCount f.nal)
  few : numGroups (packetCount f.nal) ≤ kMaxFecGroups
  small : packetCount f.nal ≤ 0xFFFF
  hdr : pkt.hdr =
    ⟨f.frameId, f.timestampUs, UInt16.ofNat (packetCount f.nal), UInt8.ofNat g⟩
  idr : pkt.idr = f.idr
  parity : pkt.parity = parityOf f.nal g

theorem toNat_ofNat_u16 {n : Nat} (h : n ≤ 0xFFFF) : (UInt16.ofNat n).toNat = n := by
  simp
  omega

/-- The call a datagram of `f` makes is about one of its pieces or parity blocks. -/
theorem sent_cases {p : Packetizer} {f : SentFrame} {d : Bytes} {nowUs : UInt64}
    {op : ReassemblerOp} (hd : d ∈ (p.sendFrame f).1)
    (hop : ReassemblerOp.ofDatagram d nowUs = some op) :
    (∃ pkt i, op = .push pkt nowUs ∧ PieceOf f pkt i) ∨
      (∃ pkt g, op = .pushFec pkt nowUs ∧ ParityOf f pkt g) := by
  obtain ⟨hnal, hsmall, ⟨i, hi, hbuild⟩ | ⟨hfec, g, hg, hbuild⟩⟩ := Packetizer.sendFrame_sent hd
  · left
    have hlt : UInt16.ofNat i < UInt16.ofNat (packetCount f.nal) := by
      rw [UInt16.lt_iff_toNat_lt, toNat_ofNat_u16 (by omega), toNat_ofNat_u16 hsmall]
      exact hi
    obtain ⟨hdr, hparse, htype, hchan, hview⟩ := parseVideoPacket_build hlt hbuild
    simp only [ReassemblerOp.ofDatagram, hparse, hchan, htype, hview] at hop
    exact ⟨_, i, (Option.some.inj hop).symm, ⟨hi, hsmall, rfl, rfl, rfl⟩⟩
  · right
    have hfew : numGroups (packetCount f.nal) ≤ kMaxFecGroups := by
      simp only [Packetizer.sendsParity, Bool.and_eq_true, decide_eq_true_eq] at hfec
      exact hfec.2
    have hlt : (UInt8.ofNat g).toNat < numGroups (UInt16.ofNat (packetCount f.nal)).toNat := by
      rw [toNat_ofNat_u16 hsmall, UInt8.toNat_ofNat']
      exact lt_of_le_of_lt (Nat.mod_le _ _) hg
    obtain ⟨hdr, hparse, htype, hchan, hview⟩ := parseFecPacket_build hlt hbuild
    simp only [ReassemblerOp.ofDatagram, hparse, hchan, htype, hview] at hop
    exact ⟨_, g, (Option.some.inj hop).symm, ⟨hg, hfew, hsmall, rfl, rfl, rfl⟩⟩

/-! ## Groups -/

theorem numGroups_pos {n : Nat} (h : 0 < n) : 0 < numGroups n := by
  unfold numGroups kFecGroupSize
  omega

theorem mem_groupMembers {n g i : Nat} :
    i ∈ groupMembers n g ↔ i < n ∧ i % numGroups n = g := by
  simp [groupMembers]

theorem nodup_groupMembers (n g : Nat) : (groupMembers n g).Nodup :=
  List.nodup_range.filter _

/-- The loop `for (i = group; i < count; i += groups)` visits the members of the group. -/
theorem mem_loopIndices {n k g i : Nat} (hg : g < k) :
    i ∈ loopIndices g n k ↔ i < n ∧ i % k = g := by
  have hk : 0 < k := by omega
  unfold loopIndices
  rw [List.mem_range']
  constructor
  · rintro ⟨j, hj, rfl⟩
    refine ⟨?_, ?_⟩
    · have hle : (j + 1) * k ≤ n - g + k - 1 := le_trans (Nat.mul_le_mul_right k hj) (Nat.div_mul_le_self _ _)
      rw [Nat.add_mul] at hle
      rw [Nat.mul_comm k j]
      omega
    · rw [Nat.add_mul_mod_self_left, Nat.mod_eq_of_lt hg]
  · rintro ⟨hi, hmod⟩
    refine ⟨i / k, ?_, ?_⟩
    · rw [Nat.lt_div_iff_mul_lt hk]
      have := Nat.div_add_mod i k
      rw [Nat.mul_comm] at this
      omega
    · have := Nat.div_add_mod i k
      omega

theorem nodup_loopIndices {n k g : Nat} (hk : 0 < k) : (loopIndices g n k).Nodup :=
  List.nodup_range' _ hk

theorem loopIndices_perm {n g : Nat} (hg : g < numGroups n) :
    (loopIndices g n (numGroups n)).Perm (groupMembers n g) := by
  refine (List.perm_ext_iff_of_nodup (nodup_loopIndices (by omega)) (nodup_groupMembers n g)).mpr ?_
  intro i
  rw [mem_loopIndices hg, mem_groupMembers]

/-! ## A pending frame and the frame that was sent -/

/-- `i` is the only piece of group `g` that is missing. -/
def LoneMissing (p : Pending) (n g i : Nat) : Prop :=
  i ∈ groupMembers n g ∧ p.pieceAt i = [] ∧
    ∀ j ∈ groupMembers n g, j ≠ i → p.pieceAt j ≠ []

theorem LoneMissing.congr {p p' : Pending} {n g i : Nat} (h : LoneMissing p' n g i)
    (heq : ∀ j ∈ groupMembers n g, p'.pieceAt j = p.pieceAt j) : LoneMissing p n g i := by
  obtain ⟨hi, hmissing, hothers⟩ := h
  refine ⟨hi, heq i hi ▸ hmissing, ?_⟩
  intro j hj hne
  exact heq j hj ▸ hothers j hj hne

/-- The pending frame `p` holds parts of the frame `f`. -/
structure PartOf (f : SentFrame) (p : Pending) : Prop where
  small : packetCount f.nal ≤ 0xFFFF
  count : p.pktCount.toNat = packetCount f.nal
  length : p.pieces.length = packetCount f.nal
  pieces : ∀ i < packetCount f.nal, p.pieceAt i = [] ∨ p.pieceAt i = piece f.nal i
  parity : ∀ g par, p.parity.find? g = some par →
    g.toNat < numGroups (packetCount f.nal) ∧ numGroups (packetCount f.nal) ≤ kMaxFecGroups ∧
      par = parityOf f.nal g.toNat
  timestamp : p.timestampUs = f.timestampUs
  idr : p.idr = f.idr ∨ p.idr = false ∧ ∀ q ∈ p.pieces, q = []
  received : p.received.toNat = p.pieces.countP (fun q => q ≠ [])

/-- Each parity block that came has been used: no group with a parity block waits
for a single piece. -/
def Recovered (f : SentFrame) (p : Pending) : Prop :=
  ∀ g par, p.parity.find? g = some par → ∀ i, ¬ LoneMissing p (packetCount f.nal) g.toNat i

namespace Pending

theorem pieceAt_set (p : Pending) (i j : Nat) (q : Bytes) (hi : i < p.pieces.length) :
    ({ p with pieces := p.pieces.set i q } : Pending).pieceAt j =
      if j = i then q else p.pieceAt j := by
  unfold pieceAt
  by_cases hij : j = i
  · subst hij
    simp [List.getD_eq_getElem?_getD, hi]
  · simp [List.getD_eq_getElem?_getD, List.getElem?_set_ne (Ne.symm hij), hij]

/-- The loop of `TryRecover` adds the pieces of `is` into the block. -/
theorem addPieces_eq {p : Pending} {is : List Nat} {rec : Bytes} (hrec : rec.length = kParityStride)
    (hlen : ∀ i ∈ is, (p.pieceAt i).length ≤ kMaxVideoPayload) :
    p.addPieces is rec = some ((is.map (fun i => lenPrefixed (p.pieceAt i))).foldl xorInto rec) := by
  induction is generalizing rec with
  | nil => rfl
  | cons i is ih =>
    have hi := hlen i (by simp)
    unfold addPieces
    rw [if_neg (by rw [hrec, kParityStride]; omega)]
    rw [ih (by simp [hrec]) (fun j hj => hlen j (by simp [hj]))]
    rfl

end Pending

/-- The two length bytes of a block that holds one piece. -/
theorem getU16_lenPrefixed (q rest : Bytes) (h : q.length ≤ kMaxVideoPayload) :
    (getU16 (lenPrefixed q ++ rest)).toNat = q.length := by
  have hmax : kMaxVideoPayload = 1174 := rfl
  rw [hmax] at h
  have hhigh : ((UInt8.ofNat (q.length >>> 8)).toUInt16 <<< 8).toNat = q.length / 256 * 256 := by
    simp [Nat.shiftLeft_eq, Nat.shiftRight_eq_div_pow]
    omega
  have hlow : (UInt8.ofNat (q.length &&& 0xFF)).toUInt16.toNat = q.length % 256 := by
    have : q.length &&& 0xFF = q.length % 256 := Nat.and_two_pow_sub_one_eq_mod q.length 8
    rw [this]
    simp
  show ((UInt8.ofNat (q.length >>> 8)).toUInt16 <<< 8 |||
    (UInt8.ofNat (q.length &&& 0xFF)).toUInt16).toNat = q.length
  rw [UInt16.toNat_or, hhigh, hlow, or_eq_add_of_dvd (i := 8) (by omega) (by omega)]
  omega

namespace PartOf

variable {f : SentFrame} {p : Pending}

theorem length_pieceAt_le (h : PartOf f p) (i : Nat) :
    (p.pieceAt i).length ≤ kMaxVideoPayload := by
  by_cases hi : i < packetCount f.nal
  · rcases h.pieces i hi with hnil | hpiece
    · simp [hnil]
    · rw [hpiece]
      exact length_piece_le _ _
  · have : p.pieceAt i = [] := by
      simp [Pending.pieceAt, List.getD_eq_getElem?_getD, h.length, Nat.not_lt.mp hi]
    simp [this]

/-- Adding the pieces that are there to the parity block leaves the one that is not. -/
theorem addPieces_parity (h : PartOf f p) {g i : Nat} (hg : g < numGroups (packetCount f.nal))
    (hlone : LoneMissing p (packetCount f.nal) g i) :
    p.addPieces ((loopIndices g (packetCount f.nal) (numGroups (packetCount f.nal))).filter
        (fun j => j ≠ i)) (parityOf f.nal g) =
      some (lenPrefixed (piece f.nal i) ++
        List.replicate (kParityStride - (lenPrefixed (piece f.nal i)).length) 0) := by
  obtain ⟨hi, hmissing, hothers⟩ := hlone
  rw [Pending.addPieces_eq (length_parityOf _ _) (fun j _ => h.length_pieceAt_le j)]
  have hperm := loopIndices_perm hg
  -- the pieces that are added are the sent ones
  have hpieces : ∀ j ∈ (loopIndices g (packetCount f.nal) (numGroups (packetCount f.nal))).filter
      (fun j => j ≠ i), lenPrefixed (p.pieceAt j) = lenPrefixed (piece f.nal j) := by
    intro j hj
    obtain ⟨hj, hne⟩ := List.mem_filter.mp hj
    have hj := hperm.mem_iff.mp hj
    rcases h.pieces j (mem_groupMembers.mp hj).1 with hnil | hpiece
    · exact absurd hnil (hothers j hj (by simpa using hne))
    · rw [hpiece]
  rw [List.map_congr_left hpieces]
  have hnodup := nodup_groupMembers (packetCount f.nal) g
  have hsplit : (groupMembers (packetCount f.nal) g).Perm
      (i :: (groupMembers (packetCount f.nal) g).filter (fun j => j ≠ i)) := by
    have herase : (groupMembers (packetCount f.nal) g).erase i =
        (groupMembers (packetCount f.nal) g).filter (fun j => j ≠ i) := by
      rw [hnodup.erase_eq_filter]
      exact List.filter_congr (fun j _ => by rw [Bool.eq_iff_iff]; simp)
    rw [← herase]
    exact List.perm_cons_erase hi
  have hgroup := (hsplit.trans ((hperm.symm.filter _).cons i)).map
    (fun j => lenPrefixed (piece f.nal j))
  have hlen := length_piece_le f.nal i
  exact congrArg some (recover hgroup (by
    rw [length_lenPrefixed, kParityStride, kFecLenPrefix]
    omega))

/-- The scan of `TryRecover` finds one empty slot exactly when one piece is missing. -/
theorem scan_eq_singleton {g i : Nat} (hg : g < numGroups (packetCount f.nal)) :
    (loopIndices g (packetCount f.nal) (numGroups (packetCount f.nal))).filter
      (fun j => p.pieceAt j = []) = [i] ↔ LoneMissing p (packetCount f.nal) g i := by
  have hmem : ∀ j, j ∈ (loopIndices g (packetCount f.nal) (numGroups (packetCount f.nal))).filter
      (fun j => p.pieceAt j = []) ↔ j ∈ groupMembers (packetCount f.nal) g ∧ p.pieceAt j = [] := by
    intro j
    rw [List.mem_filter, (loopIndices_perm hg).mem_iff]
    simp
  constructor
  · intro heq
    simp only [heq, List.mem_singleton] at hmem
    refine ⟨((hmem i).mp rfl).1, ((hmem i).mp rfl).2, ?_⟩
    intro j hj hne hnil
    exact hne ((hmem j).mpr ⟨hj, hnil⟩)
  · rintro ⟨hi, hmissing, hothers⟩
    have hnodup : ((loopIndices g (packetCount f.nal) (numGroups (packetCount f.nal))).filter
        (fun j => p.pieceAt j = [])).Nodup := (nodup_loopIndices (by omega)).filter _
    refine List.perm_singleton.mp ?_
    refine (List.perm_ext_iff_of_nodup hnodup (List.nodup_singleton i)).mpr ?_
    intro j
    rw [hmem, List.mem_singleton]
    constructor
    · rintro ⟨hj, hnil⟩
      by_contra hne
      exact hothers j hj hne hnil
    · rintro rfl
      exact ⟨hi, hmissing⟩

/-- With its parity block there, the lone missing piece of a group is recovered as
it was sent. -/
theorem tryRecover_lone (h : PartOf f p) {g : UInt8} {par : Bytes} {i : Nat}
    (hpar : p.parity.find? g = some par)
    (hlone : LoneMissing p (packetCount f.nal) g.toNat i) :
    p.tryRecover g =
      some
        { p with
          pieces := p.pieces.set i (piece f.nal i)
          bytes := p.bytes + (piece f.nal i).length
          received := p.received + 1 } := by
  obtain ⟨hg, -, rfl⟩ := h.parity g par hpar
  have hi := (mem_groupMembers.mp hlone.1).1
  have hne := piece_ne_nil hi
  have hle := length_piece_le f.nal i
  have hpos : 0 < (piece f.nal i).length := List.length_pos_of_ne_nil hne
  unfold Pending.tryRecover
  simp only [hpar, h.count]
  rw [if_neg (by omega), (scan_eq_singleton hg).mpr hlone]
  simp only [h.addPieces_parity hg hlone]
  rw [getU16_lenPrefixed _ _ hle, if_neg]
  · simp [lenPrefixed, kFecLenPrefix]
  · simp only [List.length_append, length_lenPrefixed, kFecLenPrefix]
    omega

/-- Without a lone missing piece nothing is recovered. -/
theorem tryRecover_none (h : PartOf f p) {g : UInt8}
    (hnone : ∀ i, ¬ LoneMissing p (packetCount f.nal) g.toNat i) : p.tryRecover g = none := by
  unfold Pending.tryRecover
  cases hpar : p.parity.find? g with
  | none => rfl
  | some par =>
    obtain ⟨hg, -, rfl⟩ := h.parity g par hpar
    simp only [h.count]
    rw [if_neg (by omega)]
    split
    · next i heq => exact absurd ((scan_eq_singleton hg).mp heq) (hnone i)
    · rfl

/-- The flag after a packet of the frame was seen. -/
theorem idr_or (h : PartOf f p) : (p.idr || f.idr) = f.idr := by
  rcases h.idr with hidr | ⟨hidr, -⟩ <;> simp [hidr]

/-- Putting the sent piece into an empty slot. -/
theorem put (h : PartOf f p) {i : Nat} (hi : i < packetCount f.nal) (hempty : p.pieceAt i = [])
    (idr : Bool) (bytes : Nat) (hidr : idr = f.idr) :
    PartOf f
      { p with
        pieces := p.pieces.set i (piece f.nal i)
        bytes := bytes
        idr := idr
        received := p.received + 1 } where
  small := h.small
  count := h.count
  length := by simpa using h.length
  pieces j hj := by
    have hat := p.pieceAt_set i j (piece f.nal i) (h.length.symm ▸ hi)
    simp only [Pending.pieceAt] at hat ⊢
    rw [hat]
    split
    · next hji => exact Or.inr (by rw [hji])
    · exact h.pieces j hj
  parity := h.parity
  timestamp := h.timestamp
  idr := Or.inl hidr
  received := by
    have hlt : i < p.pieces.length := h.length.symm ▸ hi
    have hslot : p.pieces[i] = [] := by
      simpa [Pending.pieceAt, List.getD_eq_getElem?_getD, hlt] using hempty
    -- one slot is empty, so the counter does not wrap
    have hroom : p.pieces.countP (fun q => q ≠ []) < p.pieces.length := by
      refine lt_of_le_of_ne List.countP_le_length ?_
      intro hall
      have := List.countP_eq_length.mp hall p.pieces[i] (List.getElem_mem hlt)
      simp [hslot] at this
    have hsmall := h.small
    have hlength := h.length
    have hreceived := h.received
    have hold : decide (p.pieces[i] ≠ []) = false := by simp [hslot]
    have hnew : decide (piece f.nal i ≠ []) = true := by simp [piece_ne_nil hi]
    rw [List.countP_set hlt, UInt16.toNat_add, hreceived, hold, hnew]
    show (_ + 1) % 65536 = _ - 0 + 1
    omega

/-- `TryRecover` on group `g` keeps the pieces right, and leaves no lone missing
piece with its parity block. -/
theorem recover (h : PartOf f p) (hidr : p.idr = f.idr) (g : UInt8)
    (hothers : ∀ g' par, g' ≠ g → p.parity.find? g' = some par →
      ∀ i, ¬ LoneMissing p (packetCount f.nal) g'.toNat i) :
    PartOf f (p.recover g).1 ∧ Recovered f (p.recover g).1 := by
  unfold Pending.recover
  by_cases hlone : ∃ par i, p.parity.find? g = some par ∧ LoneMissing p (packetCount f.nal) g.toNat i
  · obtain ⟨par, i, hpar, hlone⟩ := hlone
    obtain ⟨hi, hgroup⟩ := mem_groupMembers.mp hlone.1
    rw [h.tryRecover_lone hpar hlone]
    refine ⟨h.put hi hlone.2.1 p.idr _ hidr, ?_⟩
    have hat : ∀ j, ({ p with
        pieces := p.pieces.set i (piece f.nal i)
        bytes := p.bytes + (piece f.nal i).length
        received := p.received + 1 } : Pending).pieceAt j =
          if j = i then piece f.nal i else p.pieceAt j :=
      fun j => p.pieceAt_set i j (piece f.nal i) (h.length.symm ▸ hi)
    intro g' par' hpar' j hlone'
    by_cases hg : g' = g
    · -- the group itself has no empty slot any more
      subst hg
      obtain ⟨hj, hmissing, -⟩ := hlone'
      rw [hat] at hmissing
      split at hmissing
      · exact piece_ne_nil hi hmissing
      · next hne => exact hlone.2.2 j hj hne hmissing
    · -- the other groups have other members
      refine hothers g' par' hg hpar' j (hlone'.congr ?_)
      intro k hk
      rw [hat, if_neg]
      rintro rfl
      exact hg (UInt8.toNat_inj.mp ((mem_groupMembers.mp hk).2.symm.trans hgroup))
  · push Not at hlone
    have hnone : p.tryRecover g = none := by
      cases hpar : p.parity.find? g with
      | none => simp [Pending.tryRecover, hpar]
      | some par => exact h.tryRecover_none (fun i => hlone par i hpar)
    rw [hnone]
    refine ⟨h, ?_⟩
    intro g' par' hpar' i
    by_cases hg : g' = g
    · subst hg
      exact hlone par' i hpar'
    · exact hothers g' par' hg hpar' i

/-- Notes on a frame about times and the highest index do not touch its pieces. -/
theorem notes (h : PartOf f p) (maxIndexSeen : UInt16) (lastPushUs lastNackUs : UInt64) :
    PartOf f
      { p with maxIndexSeen := maxIndexSeen, lastPushUs := lastPushUs, lastNackUs := lastNackUs } :=
  ⟨h.small, h.count, h.length, h.pieces, h.parity, h.timestamp, h.idr, h.received⟩

/-- A video packet of the frame fills its slot, and then its group may be recovered. -/
theorem accept (h : PartOf f p) (hr : Recovered f p) {pkt : VideoPacketView} {i : Nat}
    (hpkt : PieceOf f pkt i) : PartOf f (p.accept pkt).1 ∧ Recovered f (p.accept pkt).1 := by
  have hi := hpkt.lt
  have hindex : pkt.hdr.pktIndex.toNat = i := by
    rw [hpkt.hdr]
    exact toNat_ofNat_u16 (by have := hpkt.small; omega)
  have hlt : ¬ pkt.hdr.pktIndex ≥ p.pktCount := by
    rw [ge_iff_le, UInt16.le_iff_toNat_le, hindex, h.count]
    omega
  obtain ⟨m, hm⟩ : ∃ m, (if pkt.hdr.pktIndex > p.maxIndexSeen then
      { p with maxIndexSeen := pkt.hdr.pktIndex } else p) = { p with maxIndexSeen := m } := by
    split
    · exact ⟨_, rfl⟩
    · exact ⟨p.maxIndexSeen, rfl⟩
  unfold Pending.accept
  simp only [if_neg hlt, hm, hindex, hpkt.payload, hpkt.idr]
  have hpart := h.notes m p.lastPushUs p.lastNackUs
  split
  · exact ⟨hpart, hr⟩
  · next hempty =>
    have hempty : p.pieceAt i = [] := not_not.mp hempty
    have hput := hpart.put hi hempty (p.idr || f.idr) (p.bytes + (piece f.nal i).length) h.idr_or
    have hgroups : numGroups p.pktCount.toNat ≠ 0 := by
      rw [h.count]
      have := numGroups_pos (Nat.zero_lt_of_lt hi)
      omega
    rw [if_neg hgroups, h.count]
    refine hput.recover h.idr_or _ ?_
    -- the groups of the other parity blocks do not have the piece
    intro g par hg hpar j hlone
    obtain ⟨hlt', hfew, -⟩ := h.parity g par hpar
    refine hr g par hpar j (hlone.congr ?_)
    intro k hk
    refine (p.pieceAt_set i k (piece f.nal i) (h.length.symm ▸ hi)).trans (if_neg ?_)
    rintro rfl
    have hmember := (mem_groupMembers.mp hk).2
    have hbyte : kMaxFecGroups = 256 := rfl
    refine hg (UInt8.toNat_inj.mp ?_)
    rw [UInt8.toNat_ofNat', Nat.mod_eq_of_lt (by omega)]
    exact hmember.symm

/-- A parity packet of the frame is kept, and then its group may be recovered. -/
theorem acceptFec (h : PartOf f p) (hr : Recovered f p) {pkt : FecPacketView} {g : Nat}
    (hpkt : ParityOf f pkt g) : PartOf f (p.acceptFec pkt).1 ∧ Recovered f (p.acceptFec pkt).1 := by
  have hgroup : pkt.hdr.groupIndex.toNat = g := by
    have := hpkt.few
    have := hpkt.lt
    have : kMaxFecGroups = 256 := rfl
    rw [hpkt.hdr, UInt8.toNat_ofNat', Nat.mod_eq_of_lt (by omega)]
  have hidr : PartOf f { p with idr := f.idr } :=
    ⟨h.small, h.count, h.length, h.pieces, h.parity, h.timestamp, Or.inl rfl, h.received⟩
  unfold Pending.acceptFec
  simp only [hpkt.idr, h.idr_or]
  split
  · exact ⟨hidr, hr⟩
  · have hinsert : PartOf f
        { p with idr := f.idr, parity := p.parity.insert pkt.hdr.groupIndex pkt.parity } := by
      refine ⟨h.small, h.count, h.length, h.pieces, ?_, h.timestamp, Or.inl rfl, h.received⟩
      intro g' par hpar
      rw [Map.find?_insert] at hpar
      split at hpar
      · next heq =>
        obtain rfl := Option.some.inj hpar
        rw [heq, hgroup]
        exact ⟨hpkt.lt, hpkt.few, hpkt.parity⟩
      · exact h.parity g' par hpar
    refine hinsert.recover rfl _ ?_
    intro g' par hg hpar j hlone
    rw [Map.find?_insert, if_neg hg] at hpar
    exact hr g' par hpar j hlone

/-- A complete frame is the sent one. -/
theorem complete (h : PartOf f p) (hcomplete : p.complete = true) :
    p.pieces.flatten = f.nal ∧ p.idr = f.idr ∧ p.timestampUs = f.timestampUs := by
  have hall : p.pieces.countP (fun q => q ≠ []) = p.pieces.length := by
    simp only [Pending.complete, Bool.and_eq_true, decide_eq_true_eq] at hcomplete
    rw [← h.received, hcomplete.2, h.count, h.length]
  have hfull : ∀ q ∈ p.pieces, q ≠ [] := fun q hq => by simpa using List.countP_eq_length.mp hall q hq
  refine ⟨?_, ?_, h.timestamp⟩
  · have hpieces : p.pieces = (List.range (packetCount f.nal)).map (piece f.nal) := by
      refine List.ext_getElem (by simp [h.length]) ?_
      intro i hi hi'
      have hat : p.pieceAt i = p.pieces[i] := by
        simp [Pending.pieceAt, List.getD_eq_getElem?_getD, hi]
      rcases h.pieces i (h.length ▸ hi) with hnil | hpiece
      · exact absurd (hat.symm.trans hnil) (hfull _ (List.getElem_mem hi))
      · simp [← hat, hpiece]
    rw [hpieces, flatten_pieces]
  · rcases h.idr with hidr | ⟨-, hnil⟩
    · exact hidr
    · -- a frame without pieces is not complete
      have hpos : 0 < p.pieces.length := by
        simp only [Pending.complete, Bool.and_eq_true, decide_eq_true_eq] at hcomplete
        rw [h.length, ← h.count]
        exact Nat.pos_of_ne_zero (fun h0 => hcomplete.1 (UInt16.toNat_inj.mp h0))
      have hmem := List.getElem_mem hpos
      exact absurd (hnil _ hmem) (hfull _ hmem)

end PartOf

/-- A new pending frame holds nothing yet. -/
theorem partOf_fresh {f : SentFrame} (hsmall : packetCount f.nal ≤ 0xFFFF) (nowUs : UInt64) :
    PartOf f (Reassembler.fresh (UInt16.ofNat (packetCount f.nal)) f.timestampUs nowUs) where
  small := hsmall
  count := toNat_ofNat_u16 hsmall
  length := by
    show (List.replicate (UInt16.ofNat (packetCount f.nal)).toNat ([] : Bytes)).length = _
    rw [List.length_replicate, toNat_ofNat_u16 hsmall]
  pieces i _ := Or.inl (by simp [Reassembler.fresh, Pending.pieceAt])
  parity g par h := by cases h
  timestamp := rfl
  idr := Or.inr ⟨rfl, fun q hq => List.eq_of_mem_replicate hq⟩
  received := by
    show 0 = _
    simp [Reassembler.fresh, List.countP_replicate]

/-! ## Runs -/

/-- Every pending frame is part of the sent frame with its id. -/
def HoldsParts (sent : List (Packetizer × SentFrame)) (s : Reassembler) : Prop :=
  ∀ id p, (id, p) ∈ s.pending.entries →
    ∃ x ∈ sent, x.2.frameId = id ∧ PartOf x.2 p ∧ Recovered x.2 p

/-- The frame is the sent frame with its id. -/
def IsSent (sent : List (Packetizer × SentFrame)) (frame : Frame) : Prop :=
  ∃ x ∈ sent, x.2.frameId = frame.frameId ∧ frame.nal = x.2.nal ∧ frame.idr = x.2.idr ∧
    frame.timestampUs = x.2.timestampUs

/-- Only sent frames are returned. -/
def ReturnsSent (sent : List (Packetizer × SentFrame)) (out : List ReassemblerEvent) : Prop :=
  ∀ frame, .returned frame ∈ out → IsSent sent frame

variable {sent : List (Packetizer × SentFrame)}

theorem HoldsParts.givesUp {s s' : Reassembler} {evs : List ReassemblerEvent}
    (h : HoldsParts sent s) (hdrops : Reassembler.GivesUp s evs s') : HoldsParts sent s' :=
  fun id p hp => h id p (hdrops.mem_pending hp)

theorem givesUp_returnsSent {s s' : Reassembler} {evs : List ReassemblerEvent}
    (h : Reassembler.GivesUp s evs s') : ReturnsSent sent evs := by
  induction h with
  | refl s => intro frame hframe; cases hframe
  | @drop s s' evs id f reason nowUs hfirst rest ih =>
    intro frame hframe
    rcases List.mem_append.mp hframe with hframe | hframe
    · obtain ⟨info, -, hevs | hevs⟩ := Reassembler.drop_events s id f reason nowUs <;>
        simp [hevs] at hframe
    · exact ih frame hframe

theorem HoldsParts.insert {s s' : Reassembler} {x : Packetizer × SentFrame} {p : Pending}
    (h : HoldsParts sent s) (hx : x ∈ sent) (hpart : PartOf x.2 p ∧ Recovered x.2 p)
    (hpending : s'.pending = s.pending.insert x.2.frameId p) : HoldsParts sent s' := by
  intro id q hq
  rw [hpending] at hq
  rcases Map.mem_insert.mp hq with ⟨rfl, rfl⟩ | ⟨-, hq⟩
  · exact ⟨x, hx, rfl, hpart⟩
  · exact h id q hq

/-- A packet of a sent frame keeps the pending frames right. -/
theorem HoldsParts.takesIn {s : Reassembler} {x : Packetizer × SentFrame} {nowUs : UInt64}
    {upd : Pending → Pending} {r : Reassembler × List ReassemblerEvent}
    (hids : (sent.map (fun x => x.2.frameId)).Nodup) (hx : x ∈ sent)
    (hsmall : packetCount x.2.nal ≤ 0xFFFF)
    (hupd : ∀ p, PartOf x.2 p → Recovered x.2 p → PartOf x.2 (upd p) ∧ Recovered x.2 (upd p))
    (hstep : Reassembler.TakesIn s x.2.frameId (UInt16.ofNat (packetCount x.2.nal))
      x.2.timestampUs nowUs upd r) (h : HoldsParts sent s) :
    HoldsParts sent r.1 ∧ ReturnsSent sent r.2 := by
  cases hstep with
  | ignored hpending hbarrier =>
    refine ⟨?_, by intro frame hframe; cases hframe⟩
    intro id p hp
    exact h id p (hpending ▸ hp)
  | @changed s' p hfree hfind hcount hpending hbarrier =>
    refine ⟨?_, by intro frame hframe; cases hframe⟩
    obtain ⟨y, hy, hid, hpart, hr⟩ := h _ p (Map.find?_eq_some.mp hfind)
    -- one id, one sent frame
    obtain rfl : y = x := List.inj_on_of_nodup_map hids hy hx hid
    exact h.insert hy (hupd _ (hpart.notes p.maxIndexSeen nowUs p.lastNackUs) hr) hpending
  | @added s₀ s₁ s' evs hfree hfind hsame hsame' hevict hpending hbarrier =>
    refine ⟨?_, givesUp_returnsSent hevict⟩
    have hs₀ : HoldsParts sent s₀ := fun id p hp => h id p (hsame ▸ hp)
    have hfresh := (partOf_fresh hsmall nowUs).notes 0 nowUs 0
    refine (hs₀.givesUp hevict).insert hx (hupd _ hfresh ?_) hpending
    intro g par hpar
    cases hpar

/-- One step keeps the pending frames right, and returns only sent frames. -/
theorem step_holdsParts (hids : (sent.map (fun x => x.2.frameId)).Nodup) {s : Reassembler}
    (h : HoldsParts sent s) {op : ReassemblerOp} (hop : Arrives sent op) :
    HoldsParts sent (reassembler.step s op).1 ∧ ReturnsSent sent (reassembler.step s op).2 := by
  have hnone : ReturnsSent sent [] := by intro frame hframe; cases hframe
  cases op with
  | push pkt nowUs =>
    obtain ⟨x, hx, d, hd, t, hop⟩ := hop
    obtain ⟨pkt', i, heq, hpkt⟩ | ⟨pkt', g, heq, hpkt⟩ := sent_cases hd hop
    · obtain ⟨rfl, rfl⟩ : pkt = pkt' ∧ nowUs = t := by simpa using heq
      have hstep := Reassembler.push_takesIn s pkt nowUs
      simp only [hpkt.hdr] at hstep
      exact h.takesIn hids hx hpkt.small (fun p hp hr => hp.accept hr hpkt) hstep
    · cases heq
  | pushFec pkt nowUs =>
    obtain ⟨x, hx, d, hd, t, hop⟩ := hop
    obtain ⟨pkt', i, heq, hpkt⟩ | ⟨pkt', g, heq, hpkt⟩ := sent_cases hd hop
    · cases heq
    · obtain ⟨rfl, rfl⟩ : pkt = pkt' ∧ nowUs = t := by simpa using heq
      have hstep := Reassembler.pushFec_takesIn s pkt nowUs
      simp only [hpkt.hdr] at hstep
      exact h.takesIn hids hx hpkt.small (fun p hp hr => hp.acceptFec hr hpkt) hstep
  | popReady nowUs =>
    have hpop := Reassembler.popReady_pops s nowUs
    simp only [reassembler]
    generalize s.popReady nowUs = r at hpop
    cases hpop with
    | waits hdrops hnext =>
      refine ⟨h.givesUp hdrops, ?_⟩
      simpa using givesUp_returnsSent hdrops
    | @delivers s' evs id p hdrops hfirst hcomplete hnext =>
      have hs' := h.givesUp hdrops
      refine ⟨fun id' q hq => hs' id' q (Map.mem_erase.mp hq).2, ?_⟩
      intro frame hframe
      rcases List.mem_append.mp hframe with hframe | hframe
      · exact givesUp_returnsSent hdrops frame hframe
      · obtain rfl : frame = (s'.deliver id p).2 := by simpa using hframe
        obtain ⟨x, hx, hid, hpart, -⟩ := hs' id p (Map.first?_mem hfirst)
        obtain ⟨hnal, hidr, hts⟩ := hpart.complete hcomplete
        exact ⟨x, hx, hid, hnal, hidr, hts⟩
  | planNack nowUs rttUs room =>
    simp only [reassembler]
    refine ⟨?_, hnone⟩
    rcases Reassembler.planNack_cases s nowUs rttUs room with heq | ⟨id, p, hmem, heq⟩
    · rw [heq]
      exact h
    · rw [heq]
      obtain ⟨x, hx, rfl, hpart, hr⟩ := h id p hmem
      exact h.insert hx ⟨hpart.notes p.maxIndexSeen p.lastPushUs nowUs, hr⟩ rfl
  | setFps fps =>
    simp only [reassembler, Reassembler.setFps]
    refine ⟨?_, hnone⟩
    split <;> exact h
  | setRttUs rttUs => exact ⟨h, hnone⟩

/-- In every run fed with datagrams of sent frames the pending frames are parts of
sent frames, and only sent frames are returned. -/
theorem run_holdsParts (hids : (sent.map (fun x => x.2.frameId)).Nodup) (frameIntervalUs : UInt64)
    {ops : List ReassemblerOp} (hops : ∀ op ∈ ops, Arrives sent op) :
    HoldsParts sent (reassembler.run (.create frameIntervalUs) ops).1 ∧
      ReturnsSent sent (reassembler.run (.create frameIntervalUs) ops).2 := by
  refine Machine.run_invariant (fun s out => HoldsParts sent s ∧ ReturnsSent sent out)
    (fun _ _ op => Arrives sent op) ⟨?_, ?_⟩ ?_ ops ?_
  · intro id p hp
    cases hp
  · intro frame hframe
    cases hframe
  · rintro s out op hop ⟨hs, hout⟩
    obtain ⟨hs', hnew⟩ := step_holdsParts hids hs hop
    refine ⟨hs', ?_⟩
    intro frame hframe
    rcases List.mem_append.mp hframe with hframe | hframe
    · exact hout frame hframe
    · exact hnew frame hframe
  · rintro pre op post rfl
    exact hops op (by simp)

/-- Video arrives exactly or not at all: a frame that is returned is the sent frame
with its id, and a piece whose group has come but for it, parity included, is in
place as it was sent. -/
theorem video_exact (sent : List (Packetizer × SentFrame))
    (hids : (sent.map (fun x => x.2.frameId)).Nodup) (frameIntervalUs : UInt64)
    (ops : List ReassemblerOp) (hops : ∀ op ∈ ops, Arrives sent op) :
    (∀ frame, .returned frame ∈ (reassembler.run (.create frameIntervalUs) ops).2 →
      IsSent sent frame) ∧
    (∀ id p, (id, p) ∈ (reassembler.run (.create frameIntervalUs) ops).1.pending.entries →
      ∃ x ∈ sent, x.2.frameId = id ∧
        ∀ g par i, p.parity.find? g = some par → i ∈ groupMembers (packetCount x.2.nal) g.toNat →
          (∀ j ∈ groupMembers (packetCount x.2.nal) g.toNat, j ≠ i → p.pieceAt j ≠ []) →
          p.pieceAt i = piece x.2.nal i) := by
  obtain ⟨hparts, hreturns⟩ := run_holdsParts hids frameIntervalUs hops
  refine ⟨hreturns, ?_⟩
  intro id p hp
  obtain ⟨x, hx, hid, hpart, hr⟩ := hparts id p hp
  refine ⟨x, hx, hid, ?_⟩
  intro g par i hpar hi hothers
  rcases hpart.pieces i (mem_groupMembers.mp hi).1 with hnil | hpiece
  · exact absurd ⟨hi, hnil, hothers⟩ (hr g par hpar i)
  · exact hpiece

/-- One frame sent with parity, of which only the parity block arrives. -/
def parityOnlySent : List (Packetizer × SentFrame) := [(⟨7, true⟩, ⟨[1, 2, 3], 5, 9, true⟩)]

def parityOnlyRun : List ReassemblerOp :=
  [.pushFec ⟨⟨5, 9, 1, 0⟩, true, parityOf [1, 2, 3] 0⟩ 1, .popReady 1]

/-- The frame recovered from the parity block alone is the one that was sent. -/
theorem video_exact_parityOnly : IsSent parityOnlySent ⟨5, 9, true, 1, [1, 2, 3]⟩ := by
  refine (video_exact parityOnlySent (by decide) 16667 parityOnlyRun ?_).1 _ ?_
  · intro op hop
    rcases List.mem_cons.mp hop with rfl | hop
    · refine ⟨_, List.mem_singleton.mpr rfl,
        ((Packetizer.sendFrame ⟨7, true⟩ ⟨[1, 2, 3], 5, 9, true⟩).1).getD 1 [], ?_, 1, ?_⟩
      · decide +kernel
      · decide +kernel
    · obtain rfl := List.mem_singleton.mp hop
      trivial
  · decide +kernel

end Deskhub
