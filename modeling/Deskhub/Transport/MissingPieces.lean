import Deskhub.Transport.ExactFrames
import Deskhub.Transport.NackPlans

/-!
# A frame made whole

The oldest frame of the reassembler, with pieces missing: what `PlanNack` asks for when its time has
come, what the pieces do that come for it, and what `PopReady` does with it once it has them all.
-/

namespace Deskhub

open OrdMap

/-! ## The pieces of a frame -/

namespace Pending

/-- The indices of the pieces that have not come. -/
def missing (f : Pending) : List Nat := (List.range f.pktCount.toNat).filter fun i => f.pieceAt i = []

end Pending

namespace PartOf

variable {f : SentFrame} {p : Pending}

/-- Recovering a piece takes none away. -/
theorem recover_keeps (h : PartOf f p) (g : UInt8) {j : Nat} (hj : p.pieceAt j ≠ []) :
    (p.recover g).1.pieceAt j ≠ [] := by
  unfold Pending.recover
  -- only a lone missing piece is rebuilt, and no piece is empty
  by_cases hlone : ∃ par i, p.parity.find? g = some par ∧ LoneMissing p (packetCount f.nal) g.toNat i
  · obtain ⟨par, i, hpar, hlone⟩ := hlone
    obtain ⟨hi, -⟩ := mem_groupMembers.mp hlone.1
    rw [h.tryRecover_lone hpar hlone]
    have hat := p.pieceAt_set i j (piece f.nal i) (h.length.symm ▸ hi)
    simp only [Pending.pieceAt] at hat ⊢
    rw [hat]
    split
    · exact piece_ne_nil hi
    · exact hj
  · push Not at hlone
    have hnone : p.tryRecover g = none := by
      cases hpar : p.parity.find? g with
      | none => simp [Pending.tryRecover, hpar]
      | some par => exact h.tryRecover_none fun i => hlone par i hpar
    rw [hnone]
    exact hj

/-- A packet of the frame brings its piece and takes none away. -/
theorem accept_fills (h : PartOf f p) {pkt : VideoPacketView} {i : Nat} (hpkt : PieceOf f pkt i) :
    (p.accept pkt).1.pieceAt i ≠ [] ∧ ∀ j, p.pieceAt j ≠ [] → (p.accept pkt).1.pieceAt j ≠ [] := by
  have hi := hpkt.lt
  have hindex : pkt.hdr.pktIndex.toNat = i := by
    rw [hpkt.hdr]
    exact toNat_ofNat_u16 (by have := hpkt.small; omega)
  have hlt : ¬ pkt.hdr.pktIndex ≥ p.pktCount := by
    rw [ge_iff_le, UInt16.le_iff_toNat_le, hindex, h.count]
    omega
  -- the greatest index that came plays no part in what follows
  obtain ⟨m, hm⟩ : ∃ m, (if pkt.hdr.pktIndex > p.maxIndexSeen then
      { p with maxIndexSeen := pkt.hdr.pktIndex } else p) = { p with maxIndexSeen := m } := by
    split
    · exact ⟨_, rfl⟩
    · exact ⟨p.maxIndexSeen, rfl⟩
  unfold Pending.accept
  simp only [if_neg hlt, hm, hindex, hpkt.payload, hpkt.idr]
  have hpart := h.notes m p.lastPushUs p.lastNackUs
  split
  · next hthere => exact ⟨hthere, fun j hj => hj⟩
  · next hempty =>
    have hempty : p.pieceAt i = [] := not_not.mp hempty
    have hput := hpart.put hi hempty (p.idr || f.idr) (p.bytes + (piece f.nal i).length) h.idr_or
    have hgroups : numGroups p.pktCount.toNat ≠ 0 := by
      rw [h.count]
      have := numGroups_pos (Nat.zero_lt_of_lt hi)
      omega
    rw [if_neg hgroups]
    -- the piece is in its slot, and the others where they were
    have hat : ∀ j, ((p.pieces.set i (piece f.nal i)).getD j []) = if j = i then piece f.nal i else p.pieceAt j :=
      fun j => p.pieceAt_set i j (piece f.nal i) (h.length.symm ▸ hi)
    constructor
    · refine hput.recover_keeps _ ?_
      rw [Pending.pieceAt, hat, if_pos rfl]
      exact piece_ne_nil hi
    · intro j hj
      refine hput.recover_keeps _ ?_
      rw [Pending.pieceAt, hat]
      split
      · exact piece_ne_nil hi
      · exact hj

/-- With all its pieces a frame is complete. -/
theorem complete_of_full (h : PartOf f p) (hnal : f.nal ≠ [])
    (hfull : ∀ i < packetCount f.nal, p.pieceAt i ≠ []) : p.complete = true := by
  have hall : p.pieces.countP (fun q => q ≠ []) = p.pieces.length := by
    rw [List.countP_eq_length]
    intro q hq
    obtain ⟨i, hi, rfl⟩ := List.getElem_of_mem hq
    have hthere := hfull i (h.length ▸ hi)
    simpa [Pending.pieceAt, List.getD_eq_getElem?_getD, hi] using hthere
  have hpos := packetCount_pos hnal
  have hreceived : p.received = p.pktCount := by
    rw [← UInt16.toNat_inj, h.received, hall, h.length, h.count]
  have hcount : p.pktCount ≠ 0 := by
    intro hzero
    have hnone := h.count
    rw [hzero] at hnone
    exact absurd hnone.symm (Nat.pos_iff_ne_zero.mp hpos)
  simp [Pending.complete, hreceived, hcount]

/-- An incomplete frame lacks a piece. -/
theorem missing_ne_nil (h : PartOf f p) (hnal : f.nal ≠ []) (hincomplete : p.complete = false) :
    p.missing ≠ [] := by
  intro hnone
  have hfull := h.complete_of_full hnal (fun i hi hempty => by
    have hmem : i ∈ p.missing := List.mem_filter.mpr ⟨List.mem_range.mpr (h.count ▸ hi), by simpa using hempty⟩
    rw [hnone] at hmem
    cases hmem)
  rw [hfull] at hincomplete
  cases hincomplete

end PartOf

namespace Reassembler

variable {r : Reassembler}

/-- It is time to ask for the oldest frame, and for its tail too: the frame has been waited for long enough,
and not too long, the last request for it is old enough, and nothing more of it is coming. -/
structure NackDue (r : Reassembler) (nowUs rttUs : UInt64) (id : UInt32) (f : Pending) : Prop where
  oldest : r.pending.first? = some (id, f)
  incomplete : f.complete = false
  held : kNackHoldUs ≤ nowUs - f.firstSeenUs
  early : nowUs - f.firstSeenUs < r.hardTimeoutUs
  apart : f.lastNackUs = 0 ∨ max rttUs kNackMinIntervalUs ≤ nowUs - f.lastNackUs
  stalled : r.frameIntervalUs ≤ nowUs - f.lastPushUs

/-- Then all that is missing is asked for, when there is room. -/
theorem NackDue.planNack {nowUs rttUs : UInt64} {room : Nat} {id : UInt32} {f : Pending}
    (h : r.NackDue nowUs rttUs id f) (hsome : f.missing ≠ []) (hroom : f.missing.length ≤ room) :
    r.planNack nowUs rttUs room =
      (r.store id { f with lastNackUs := nowUs }, some (id, f.missing.map UInt16.ofNat)) := by
  have hentries : r.pending.entries = (id, f) :: r.pending.entries.tail :=
    (List.cons_head?_tail h.oldest).symm
  have hpositive : room ≠ 0 := by
    have hlength := List.length_pos_iff.mpr hsome
    omega
  have hlimit : r.scanLimit nowUs f = f.pktCount := by
    unfold scanLimit
    rw [if_pos (decide_eq_true h.stalled)]
  have hasked : ¬ (f.lastNackUs ≠ 0 ∧
      nowUs - f.lastNackUs < (if rttUs > kNackMinIntervalUs then rttUs else kNackMinIntervalUs)) := by
    rintro ⟨hever, hsoon⟩
    have hlong := h.apart.resolve_left hever
    refine absurd (lt_of_le_of_lt hlong hsoon) ?_
    rw [max_def]
    split
    · next hle =>
      rw [if_neg (not_lt.mpr hle)]
      exact lt_irrefl _
    · next hgt =>
      rw [if_pos (not_le.mp hgt)]
      exact lt_irrefl _
  have hmissing : missingBelow f f.pktCount.toNat room = f.missing := by
    unfold missingBelow
    exact List.take_of_length_le hroom
  -- the scan ends at the first entry, for it has something to ask for
  have hscan : r.planScan nowUs rttUs room r.pending.entries =
      some (id, f, f.missing.map UInt16.ofNat) := by
    rw [hentries, planScan_cons, if_neg (by rw [h.incomplete]; decide), if_neg (UInt64.not_le.mpr h.early),
      if_neg (UInt64.not_lt.mpr h.held), if_neg hasked, hlimit, hmissing, if_neg hsome]
  unfold Reassembler.planNack
  rw [if_neg hpositive, hscan]

/-- A packet of a frame that is pending and not refused changes that frame alone. -/
theorem push_there {pkt : VideoPacketView} {f : Pending} (nowUs : UInt64) (hsome : pkt.payload ≠ [])
    (hfree : r.refuses pkt.hdr.frameId = false) (hfind : r.pending.find? pkt.hdr.frameId = some f)
    (hcount : f.pktCount = pkt.hdr.pktCount) :
    (r.push pkt nowUs).1.pending =
        r.pending.insert pkt.hdr.frameId (({ f with lastPushUs := nowUs } : Pending).accept pkt).1 ∧
      (r.push pkt nowUs).1.barrier = r.barrier ∧ (r.push pkt nowUs).1.waitingForIdr = r.waitingForIdr ∧
        (r.push pkt nowUs).2 = [] := by
  have hfree' : (r.notePush nowUs).refuses pkt.hdr.frameId = false :=
    (refuses_congr (notePush_barrier r nowUs) _).trans hfree
  have hslot : (r.notePush nowUs).slot pkt.hdr.frameId pkt.hdr.pktCount pkt.hdr.timestampUs nowUs =
      ((r.notePush nowUs).store pkt.hdr.frameId { f with lastPushUs := nowUs }, [],
        some { f with lastPushUs := nowUs }) := by
    simp [slot, hfree', hfind, hcount]
  unfold push
  dsimp only
  rw [if_neg hsome, if_neg (by rw [hfree']; decide), hslot]
  refine ⟨?_, rfl, rfl, rfl⟩
  simp [store, Map.insert_insert]

/-- The oldest frame is delivered when it is complete, to one who waits for a keyframe only if it is one. -/
theorem popReady_first {id : UInt32} {f : Pending} (nowUs : UInt64) (hfirst : r.pending.first? = some (id, f))
    (hcomplete : f.complete = true) (hkey : r.waitingForIdr = true → f.idr = true) :
    (r.popReady nowUs).2.2 = some
      { frameId := id, timestampUs := f.timestampUs, idr := f.idr, firstSeenUs := f.firstSeenUs
        nal := f.pieces.flatten } := by
  have hsize := Map.size_erase_first hfirst
  have hverdict : r.headVerdict f r.pending.entries.tail nowUs = .deliver := by
    unfold headVerdict
    rw [if_pos hcomplete, if_neg]
    intro hwaits
    rw [Bool.and_eq_true] at hwaits
    rw [hkey hwaits.1] at hwaits
    exact Bool.false_ne_true hwaits.2
  unfold popReady
  rw [← hsize]
  unfold popLoop
  rw [hfirst]
  dsimp only
  rw [hverdict]
  rfl

end Reassembler

end Deskhub
