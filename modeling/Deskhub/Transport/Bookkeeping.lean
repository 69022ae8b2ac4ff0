import Deskhub.Transport.ExactFrames
import Deskhub.Transport.OneOutcome

/-!
# The reassembler's counters and order

Whatever packets the parsers let through, consistent with each other or not: a pending frame
counts its pieces and bytes exactly, few frames are pending, and the frames come out in the
order of their ids.
-/

namespace Deskhub

open OrdMap

/-- The pending frame counts what it holds. -/
structure Pending.Exact (f : Pending) : Prop where
  length : f.pieces.length = f.pktCount.toNat
  received : f.received.toNat = f.pieces.countP (fun p => p ≠ [])
  bytes : f.bytes = (f.pieces.map List.length).sum
  small : ∀ p ∈ f.pieces, p.length ≤ kMaxVideoPayload

/-- The packets of the call are views a parser accepts. -/
def ReassemblerOp.Parsed : ReassemblerOp → Prop
  | .push pkt _ => ∃ h payload, parseVideoPacket h payload = some pkt
  | .pushFec pkt _ => ∃ h payload, parseFecPacket h payload = some pkt
  | _ => True

/-- The ids of the frames that were returned, in order. -/
def returnedIds (out : List ReassemblerEvent) : List UInt32 :=
  out.filterMap fun
    | .returned frame => some frame.frameId
    | _ => none

theorem returnedIds_append (xs ys : List ReassemblerEvent) :
    returnedIds (xs ++ ys) = returnedIds xs ++ returnedIds ys :=
  List.filterMap_append

/-- An accepted video packet carries at most one piece. -/
theorem length_payload_of_parse {h : CommonHeader} {payload : Bytes} {pkt : VideoPacketView}
    (hparse : parseVideoPacket h payload = some pkt) : pkt.payload.length ≤ kMaxVideoPayload := by
  unfold parseVideoPacket at hparse
  split at hparse
  · cases hparse
  · split at hparse
    · cases hparse
    · next hsmall =>
      dsimp only at hparse
      split at hparse
      · cases hparse
      · rw [← Option.some.inj hparse, List.length_drop]
        omega

/-! ## The pieces of one frame -/

theorem sum_length_set {pieces : List Bytes} {i : Nat} (piece : Bytes) (hi : i < pieces.length)
    (hempty : pieces[i] = []) :
    ((pieces.set i piece).map List.length).sum = (pieces.map List.length).sum + piece.length := by
  induction pieces generalizing i with
  | nil => exact absurd hi (Nat.not_lt_zero i)
  | cons p pieces ih =>
    cases i with
    | zero =>
      rw [List.getElem_cons_zero] at hempty
      rw [List.set_cons_zero, List.map_cons, List.sum_cons, List.map_cons, List.sum_cons, hempty,
        List.length_nil, Nat.zero_add, Nat.add_comm]
    | succ i =>
      rw [List.getElem_cons_succ] at hempty
      rw [List.set_cons_succ, List.map_cons, List.sum_cons, ih (Nat.lt_of_succ_lt_succ hi) hempty,
        List.map_cons, List.sum_cons, Nat.add_assoc]

namespace Pending.Exact

variable {f : Pending}

theorem fresh (pktCount : UInt16) (timestampUs nowUs : UInt64) :
    (Reassembler.fresh pktCount timestampUs nowUs).Exact := by
  constructor
  · exact List.length_replicate
  · show 0 = (List.replicate pktCount.toNat ([] : Bytes)).countP _
    rw [List.countP_replicate]
    simp
  · show 0 = ((List.replicate pktCount.toNat ([] : Bytes)).map List.length).sum
    simp
  · intro p hp
    rw [List.eq_of_mem_replicate hp]
    exact Nat.zero_le _

/-- A piece put into an empty slot. -/
theorem put (h : f.Exact) {i : Nat} (hi : i < f.pieces.length) (hempty : f.pieceAt i = [])
    (piece : Bytes) (hne : piece ≠ []) (hsmall : piece.length ≤ kMaxVideoPayload) (idr : Bool) :
    Pending.Exact
      { f with
        pieces := f.pieces.set i piece
        bytes := f.bytes + piece.length
        idr := idr
        received := f.received + 1 } := by
  have hslot : f.pieces[i] = [] := by
    simpa [Pending.pieceAt, List.getD_eq_getElem?_getD, hi] using hempty
  constructor
  · show (f.pieces.set i piece).length = f.pktCount.toNat
    rw [List.length_set, h.length]
  · -- one slot is empty, so the counter does not wrap
    have hroom : f.pieces.countP (fun p => p ≠ []) < f.pieces.length := by
      apply lt_of_le_of_ne List.countP_le_length
      intro hall
      have hfull := List.countP_eq_length.mp hall f.pieces[i] (List.getElem_mem hi)
      rw [hslot] at hfull
      exact absurd hfull (by decide)
    have hold : decide (f.pieces[i] ≠ []) = false := by simp [hslot]
    have hnew : decide (piece ≠ []) = true := by simp [hne]
    have hlength := h.length
    have hreceived := h.received
    have hcount := f.pktCount.toNat_lt
    show (f.received + 1).toNat = (f.pieces.set i piece).countP _
    rw [List.countP_set hi, UInt16.toNat_add, hreceived, hold, hnew]
    show (_ + 1) % 65536 = _ - 0 + 1
    omega
  · show f.bytes + piece.length = ((f.pieces.set i piece).map List.length).sum
    rw [sum_length_set piece hi hslot, h.bytes]
  · intro p hp
    rcases List.mem_or_eq_of_mem_set hp with hold | hnew
    · exact h.small p hold
    · rw [hnew]
      exact hsmall

/-- A recovered piece is not empty and not too long. -/
theorem recover (h : f.Exact) (group : UInt8) : (f.recover group).1.Exact := by
  unfold Pending.recover
  cases htry : f.tryRecover group with
  | none => exact h
  | some f' =>
    dsimp only
    unfold Pending.tryRecover at htry
    split at htry
    · cases htry
    · dsimp only at htry
      split at htry
      · cases htry
      · next hgroup =>
        push Not at hgroup
        split at htry
        · next missingIdx hscan =>
          split at htry
          · cases htry
          · next rec hadd =>
            split at htry
            · cases htry
            · next hlen =>
              push Not at hlen
              have hmem : missingIdx ∈ (loopIndices group.toNat f.pktCount.toNat
                  (numGroups f.pktCount.toNat)).filter (fun i => f.pieceAt i = []) := by
                rw [hscan]
                exact List.mem_singleton_self _
              rw [List.mem_filter, mem_loopIndices hgroup.2] at hmem
              have hpiece : ((rec.drop kFecLenPrefix).take (getU16 rec).toNat).length =
                  (getU16 rec).toNat := by
                rw [List.length_take, List.length_drop]
                omega
              have hne : (rec.drop kFecLenPrefix).take (getU16 rec).toNat ≠ [] := by
                intro hnil
                rw [hnil] at hpiece
                exact hlen.1 hpiece.symm
              have hput := h.put (by rw [h.length]; exact hmem.1.1) (by simpa using hmem.2) _ hne
                (by rw [hpiece]; exact hlen.2.1) f.idr
              rw [hpiece] at hput
              rw [← Option.some.inj htry]
              exact hput
        · cases htry

/-- What is not counted may change. -/
theorem congr {f' : Pending} (h : f.Exact) (hpieces : f'.pieces = f.pieces)
    (hcount : f'.pktCount = f.pktCount) (hreceived : f'.received = f.received)
    (hbytes : f'.bytes = f.bytes) : f'.Exact := by
  constructor
  · rw [hpieces, hcount, h.length]
  · rw [hpieces, hreceived, h.received]
  · rw [hpieces, hbytes, h.bytes]
  · rw [hpieces]
    exact h.small

/-- The frame with its times noted. -/
theorem notes (h : f.Exact) (lastPushUs lastNackUs : UInt64) :
    Pending.Exact { f with lastPushUs := lastPushUs, lastNackUs := lastNackUs } :=
  h.congr rfl rfl rfl rfl

theorem accept (h : f.Exact) {pkt : VideoPacketView} (hne : pkt.payload ≠ [])
    (hsmall : pkt.payload.length ≤ kMaxVideoPayload) : (f.accept pkt).1.Exact := by
  unfold Pending.accept
  dsimp only
  split
  · exact h
  · next hindex =>
    have hlt : pkt.hdr.pktIndex.toNat < f.pktCount.toNat :=
      UInt16.lt_iff_toNat_lt.mp (UInt16.not_le.mp hindex)
    have hseen : Pending.Exact (if pkt.hdr.pktIndex > f.maxIndexSeen then
        { f with maxIndexSeen := pkt.hdr.pktIndex } else f) := by
      split
      · exact h.congr rfl rfl rfl rfl
      · exact h
    have hcount : (if pkt.hdr.pktIndex > f.maxIndexSeen then
        { f with maxIndexSeen := pkt.hdr.pktIndex } else f).pktCount = f.pktCount := by
      split <;> rfl
    rw [← hcount] at hlt
    generalize (if pkt.hdr.pktIndex > f.maxIndexSeen then
      { f with maxIndexSeen := pkt.hdr.pktIndex } else f) = g at hseen hlt
    split
    · exact hseen
    · next hempty =>
      rw [not_not] at hempty
      have hput := hseen.put (by rw [hseen.length]; exact hlt) hempty pkt.payload hne hsmall
        (g.idr || pkt.idr)
      split
      · exact hput
      · exact hput.recover _

theorem acceptFec (h : f.Exact) (pkt : FecPacketView) : (f.acceptFec pkt).1.Exact := by
  unfold Pending.acceptFec
  dsimp only
  split
  · exact h.congr rfl rfl rfl rfl
  · apply Pending.Exact.recover
    exact h.congr rfl rfl rfl rfl

/-- A complete frame holds all its pieces. -/
theorem complete (h : f.Exact) (hcomplete : f.complete = true) : ∀ p ∈ f.pieces, p ≠ [] := by
  have hall : f.pieces.countP (fun p => p ≠ []) = f.pieces.length := by
    simp only [Pending.complete, Bool.and_eq_true, decide_eq_true_eq] at hcomplete
    rw [← h.received, hcomplete.2, h.length]
  intro p hp
  simpa using List.countP_eq_length.mp hall p hp

end Pending.Exact

namespace Reassembler

/-! ## How many frames are pending -/

theorem GivesUp.size_le {s s' : Reassembler} {evs : List ReassemblerEvent}
    (h : GivesUp s evs s') : s'.pending.size ≤ s.pending.size := by
  induction h with
  | refl s => exact Nat.le_refl _
  | @drop s s' evs id f reason nowUs hfirst rest ih =>
    rw [drop_pending] at ih
    exact Nat.le_trans ih (Map.size_erase_le _ _)

/-- The eviction makes room. -/
theorem evict_size (n : Nat) (s : Reassembler) (nowUs : UInt64) (hn : s.pending.size ≤ n) :
    (evict n s nowUs).1.pending.size < kMaxPendingFrames := by
  induction n generalizing s with
  | zero =>
    show s.pending.size < 8
    omega
  | succ n ih =>
    unfold evict
    split
    · assumption
    · next hfull =>
      cases hfirst : s.pending.first? with
      | none =>
        rw [Map.first?_eq_none] at hfirst
        rw [hfirst] at hfull
        exact absurd (by decide) hfull
      | some p =>
        dsimp only
        apply ih
        have hsize := Map.size_erase_first hfirst
        rw [drop_pending]
        omega

/-- `Slot` keeps the frames few, and what it gives is pending. -/
theorem slot_size {s : Reassembler} (h : s.pending.size ≤ kMaxPendingFrames) (id : UInt32)
    (pktCount : UInt16) (timestampUs nowUs : UInt64) :
    (s.slot id pktCount timestampUs nowUs).1.pending.size ≤ kMaxPendingFrames ∧
      ((s.slot id pktCount timestampUs nowUs).2.2.isSome →
        (s.slot id pktCount timestampUs nowUs).1.pending.contains id = true) := by
  have hcontains : ∀ (m : Map UInt32 Pending) (f : Pending), (m.insert id f).contains id = true := by
    intro m f
    unfold Map.contains
    rw [Map.find?_insert_self]
    rfl
  unfold slot
  split
  · exact ⟨h, fun hsome => absurd hsome Bool.false_ne_true⟩
  · cases hfind : s.pending.find? id with
    | some f =>
      have hthere : s.pending.contains id = true := by
        unfold Map.contains
        rw [hfind]
        rfl
      dsimp only
      split
      · exact ⟨h, fun _ => hthere⟩
      · refine ⟨?_, fun _ => hcontains _ _⟩
        show (s.pending.insert id _).size ≤ kMaxPendingFrames
        rw [Map.size_insert_of_contains hthere]
        exact h
    | none =>
      have hroom := evict_size s.pending.size s nowUs (Nat.le_refl _)
      dsimp only
      split
      · refine ⟨?_, fun _ => hcontains _ _⟩
        exact Nat.le_trans (Map.size_insert_le _ _ _) hroom
      · refine ⟨?_, fun _ => hcontains _ _⟩
        show (((evict s.pending.size s nowUs).1.pending.insert id _).insert id _).size ≤ _
        rw [Map.insert_insert]
        exact Nat.le_trans (Map.size_insert_le _ _ _) hroom

theorem push_size {s : Reassembler} (h : s.pending.size ≤ kMaxPendingFrames)
    (pkt : VideoPacketView) (nowUs : UInt64) :
    (s.push pkt nowUs).1.pending.size ≤ kMaxPendingFrames := by
  unfold push
  dsimp only
  split
  · exact h
  · have hsame : (if (s.notePush nowUs).refuses pkt.hdr.frameId then
        (s.notePush nowUs).noteLatePacket pkt.hdr.frameId nowUs
        else s.notePush nowUs).pending = s.pending := by
      split <;> simp
    rw [← hsame] at h
    generalize (if (s.notePush nowUs).refuses pkt.hdr.frameId then
      (s.notePush nowUs).noteLatePacket pkt.hdr.frameId nowUs else s.notePush nowUs) = s' at h
    have hslot := slot_size h pkt.hdr.frameId pkt.hdr.pktCount pkt.hdr.timestampUs nowUs
    generalize s'.slot pkt.hdr.frameId pkt.hdr.pktCount pkt.hdr.timestampUs nowUs = r at hslot
    split
    · exact hslot.1
    · next f hf =>
      rw [keep_pending, Map.size_insert_of_contains (hslot.2 (by rw [hf]; rfl))]
      exact hslot.1

theorem pushFec_size {s : Reassembler} (h : s.pending.size ≤ kMaxPendingFrames)
    (pkt : FecPacketView) (nowUs : UInt64) :
    (s.pushFec pkt nowUs).1.pending.size ≤ kMaxPendingFrames := by
  unfold pushFec
  dsimp only
  split
  · exact h
  · have hslot := @slot_size
      { s with stats := { s.stats with fecReceived := s.stats.fecReceived + 1 } } h pkt.hdr.frameId
      pkt.hdr.pktCount pkt.hdr.timestampUs nowUs
    generalize slot _ pkt.hdr.frameId pkt.hdr.pktCount pkt.hdr.timestampUs nowUs = r at hslot
    split
    · exact hslot.1
    · next f hf =>
      rw [keep_pending, Map.size_insert_of_contains (hslot.2 (by rw [hf]; rfl))]
      exact hslot.1

/-! ## The order of the frames -/

/-- What is known of the pending frames and of the ids returned so far: the frames count what
they hold, they are few, and each of them, as each that will still be let in, is above every id
returned, which are in order. -/
structure Kept (s : Reassembler) (out : List ReassemblerEvent) : Prop where
  exact : ∀ p ∈ s.pending.entries, p.2.Exact
  few : s.pending.size ≤ kMaxPendingFrames
  ordered : (returnedIds out).Pairwise (· < ·)
  refused : ∀ id ∈ returnedIds out, s.refuses id = true
  above : ∀ id ∈ returnedIds out, ∀ p ∈ s.pending.entries, id < p.1

theorem GivesUp.returnedIds {s s' : Reassembler} {evs : List ReassemblerEvent}
    (h : GivesUp s evs s') : returnedIds evs = [] := by
  induction h with
  | refl s => rfl
  | @drop s s' evs id f reason nowUs hfirst rest ih =>
    rw [returnedIds_append, ih, List.append_nil]
    rcases drop_events s id f reason nowUs with ⟨info, -, hevs | hevs⟩
    · rw [hevs]
      rfl
    · rw [hevs]
      rfl

theorem Kept.givesUp {s s' : Reassembler} {out evs : List ReassemblerEvent} (h : s.Kept out)
    (hdrops : GivesUp s evs s') : s'.Kept (out ++ evs) := by
  have hids : Deskhub.returnedIds (out ++ evs) = Deskhub.returnedIds out := by
    rw [returnedIds_append, hdrops.returnedIds, List.append_nil]
  constructor
  · exact fun p hp => h.exact p (hdrops.mem_pending hp)
  · exact Nat.le_trans hdrops.size_le h.few
  · rw [hids]
    exact h.ordered
  · rw [hids]
    exact fun id hid => hdrops.barrierLe.refuses (h.refused id hid)
  · rw [hids]
    exact fun id hid p hp => h.above id hid p (hdrops.mem_pending hp)

/-- A frame above the ids returned so far is written back. -/
theorem Kept.insert {s s' : Reassembler} {out : List ReassemblerEvent} (h : s.Kept out)
    {id : UInt32} {f : Pending} (hexact : f.Exact)
    (habove : ∀ i ∈ Deskhub.returnedIds out, i < id)
    (hpending : s'.pending = s.pending.insert id f) (hbarrier : s'.barrier = s.barrier)
    (hfew : s'.pending.size ≤ kMaxPendingFrames) : s'.Kept out := by
  have hcases : ∀ p ∈ s'.pending.entries, p = (id, f) ∨ p ∈ s.pending.entries := by
    rintro ⟨i, g⟩ hp
    rw [hpending] at hp
    rcases Map.mem_insert.mp hp with ⟨rfl, rfl⟩ | ⟨-, hold⟩
    · exact .inl rfl
    · exact .inr hold
  constructor
  · intro p hp
    rcases hcases p hp with rfl | hold
    · exact hexact
    · exact h.exact p hold
  · exact hfew
  · exact h.ordered
  · intro i hi
    rw [refuses_congr hbarrier]
    exact h.refused i hi
  · intro i hi p hp
    rcases hcases p hp with rfl | hold
    · exact habove i hi
    · exact h.above i hi p hold

/-- Nothing changed that `Kept` looks at. -/
theorem Kept.congr {s s' : Reassembler} {out : List ReassemblerEvent} (h : s.Kept out)
    (hpending : s'.pending = s.pending) (hbarrier : s'.barrier = s.barrier) : s'.Kept out := by
  constructor
  · rw [hpending]
    exact h.exact
  · rw [hpending]
    exact h.few
  · exact h.ordered
  · intro id hid
    rw [refuses_congr hbarrier]
    exact h.refused id hid
  · rw [hpending]
    exact h.above

/-- A frame that is let in is above the ids returned so far. -/
theorem Kept.lt_of_not_refused {s : Reassembler} {out : List ReassemblerEvent} (h : s.Kept out)
    {id : UInt32} (hfree : s.refuses id = false) : ∀ i ∈ Deskhub.returnedIds out, i < id := by
  intro i hi
  rcases refuses_eq_true.mp (h.refused i hi) with ⟨b, hb, hle⟩
  unfold refuses at hfree
  rw [hb] at hfree
  exact lt_of_le_of_lt hle (not_le.mp (of_decide_eq_false hfree))

theorem Kept.takesIn {s : Reassembler} {out : List ReassemblerEvent} {id : UInt32} {n : UInt16}
    {ts t : UInt64} {upd : Pending → Pending} {r : Reassembler × List ReassemblerEvent}
    (h : s.Kept out) (hupd : ∀ f, f.Exact → (upd f).Exact) (hstep : TakesIn s id n ts t upd r)
    (hfew : r.1.pending.size ≤ kMaxPendingFrames) : r.1.Kept (out ++ r.2) := by
  cases hstep with
  | ignored hpending hbarrier =>
    rw [List.append_nil]
    exact h.congr hpending hbarrier
  | @changed s' f hfree hfind hcount hpending hbarrier =>
    rw [List.append_nil]
    have hexact := h.exact _ (Map.find?_eq_some.mp hfind)
    exact h.insert (hupd _ (hexact.notes t f.lastNackUs)) (h.lt_of_not_refused hfree) hpending
      hbarrier hfew
  | @added s₀ s₁ s' evs hfree hfind hsame hsame' hevict hpending hbarrier =>
    have hroom := (h.congr hsame hsame').givesUp hevict
    have hfresh := (Pending.Exact.fresh n ts t).notes t 0
    apply hroom.insert (hupd _ hfresh) _ hpending hbarrier hfew
    rw [returnedIds_append, hevict.returnedIds, List.append_nil]
    exact h.lt_of_not_refused hfree

/-- The oldest pending frame goes out, above all before it and below all behind it. -/
theorem Kept.deliver {s : Reassembler} {out : List ReassemblerEvent} (h : s.Kept out)
    {id : UInt32} {f : Pending} (hfirst : s.pending.first? = some (id, f)) :
    (s.deliver id f).1.Kept (out ++ [.returned (s.deliver id f).2]) := by
  have hids : Deskhub.returnedIds (out ++ [.returned (s.deliver id f).2]) =
      Deskhub.returnedIds out ++ [id] := returnedIds_append _ _
  have hmem := Map.first?_mem hfirst
  have hless : ∀ i ∈ Deskhub.returnedIds out, i < id := fun i hi => h.above i hi (id, f) hmem
  have hall : ∀ i ∈ Deskhub.returnedIds out ++ [id], i ≤ id := by
    intro i hi
    rcases List.mem_append.mp hi with hold | hnew
    · exact le_of_lt (hless i hold)
    · rw [List.mem_singleton.mp hnew]
  constructor
  · exact fun p hp => h.exact p (Map.mem_erase.mp hp).2
  · exact Nat.le_trans (Map.size_erase_le _ _) h.few
  · rw [hids, List.pairwise_append]
    refine ⟨h.ordered, List.pairwise_singleton _ _, ?_⟩
    intro i hi j hj
    rw [List.mem_singleton.mp hj]
    exact hless i hi
  · rw [hids]
    exact fun i hi => refuses_eq_true.mpr ⟨id, rfl, hall i hi⟩
  · rw [hids]
    rintro i hi ⟨j, g⟩ hp
    rcases Map.mem_erase.mp hp with ⟨hne, hp⟩
    exact lt_of_le_of_lt (hall i hi) (lt_of_le_of_ne (Map.first?_le hfirst hp) (Ne.symm hne))

/-- One call keeps the books. -/
theorem Kept.step {s : Reassembler} {out : List ReassemblerEvent} (h : s.Kept out)
    {op : ReassemblerOp} (hop : op.Parsed) :
    (reassembler.step s op).1.Kept (out ++ (reassembler.step s op).2) := by
  cases op with
  | push pkt nowUs =>
    rcases hop with ⟨hdr, payload, hparse⟩
    by_cases hne : pkt.payload = []
    · show (s.push pkt nowUs).1.Kept (out ++ (s.push pkt nowUs).2)
      unfold push
      dsimp only
      rw [if_pos hne, List.append_nil]
      exact h.congr rfl rfl
    · exact h.takesIn (fun f hf => hf.accept hne (length_payload_of_parse hparse))
        (push_takesIn s pkt nowUs) (push_size h.few pkt nowUs)
  | pushFec pkt nowUs =>
    exact h.takesIn (fun f hf => hf.acceptFec pkt) (pushFec_takesIn s pkt nowUs)
      (pushFec_size h.few pkt nowUs)
  | popReady nowUs =>
    have hpop := popReady_pops s nowUs
    simp only [reassembler]
    generalize s.popReady nowUs = r at hpop
    cases hpop with
    | waits hdrops hnext =>
      simp only [Option.map_none, Option.toList_none, List.append_nil]
      exact h.givesUp hdrops
    | delivers hdrops hfirst hcomplete hnext =>
      simp only [Option.map_some, Option.toList_some, ← List.append_assoc]
      exact (h.givesUp hdrops).deliver hfirst
  | planNack nowUs rttUs room =>
    simp only [reassembler, List.append_nil]
    rcases planNack_cases s nowUs rttUs room with heq | ⟨id, f, hmem, heq⟩
    · rw [heq]
      exact h
    · rw [heq]
      have hthere : s.pending.contains id = true := by
        unfold Map.contains
        rw [Map.find?_eq_some.mpr hmem]
        rfl
      have hstored : (s.store id { f with lastNackUs := nowUs }).pending =
          s.pending.insert id { f with lastNackUs := nowUs } := rfl
      apply h.insert ((h.exact (id, f) hmem).notes f.lastPushUs nowUs) _ hstored rfl
      · rw [hstored, Map.size_insert_of_contains hthere]
        exact h.few
      · exact fun i hi => h.above i hi _ hmem
  | setFps fps =>
    simp only [reassembler, List.append_nil, setFps]
    split
    · exact h.congr rfl rfl
    · exact h
  | setRttUs rttUs =>
    simp only [reassembler, List.append_nil]
    exact h.congr rfl rfl

theorem run_kept (frameIntervalUs : UInt64) {ops : List ReassemblerOp}
    (hops : ∀ op ∈ ops, op.Parsed) :
    (reassembler.run (.create frameIntervalUs) ops).1.Kept
      (reassembler.run (.create frameIntervalUs) ops).2 := by
  apply Machine.run_invariant Kept (fun _ _ op => op.Parsed) _ _ ops
  · rintro pre op post rfl
    exact hops op (by simp)
  · constructor
    · intro p hp
      cases hp
    · exact Nat.zero_le _
    · exact List.Pairwise.nil
    · intro id hid
      cases hid
    · intro id hid
      cases hid
  · intro s out op hop hs
    exact hs.step hop

end Reassembler

/-- In every run on views the parsers accept: the ids come out in increasing order, few frames
are pending and each counts its pieces and bytes exactly, and a frame that `PopReady` returns is
the concatenation of the pieces of a pending frame, as many as it has packets and none empty. -/
theorem reassembler_exact (frameIntervalUs : UInt64) (ops : List ReassemblerOp)
    (hops : ∀ op ∈ ops, op.Parsed) :
    (returnedIds (reassembler.run (.create frameIntervalUs) ops).2).Pairwise (· < ·) ∧
      (reassembler.run (.create frameIntervalUs) ops).1.pending.size ≤ kMaxPendingFrames ∧
      (∀ p ∈ (reassembler.run (.create frameIntervalUs) ops).1.pending.entries, p.2.Exact) ∧
      ∀ nowUs frame,
        ((reassembler.run (.create frameIntervalUs) ops).1.popReady nowUs).2.2 = some frame →
          ∃ f, (frame.frameId, f) ∈
              (reassembler.run (.create frameIntervalUs) ops).1.pending.entries ∧
            f.pieces.length = f.pktCount.toNat ∧ (∀ p ∈ f.pieces, p ≠ []) ∧
            frame.nal = f.pieces.flatten := by
  have hkept := Reassembler.run_kept frameIntervalUs hops
  refine ⟨hkept.ordered, hkept.few, hkept.exact, ?_⟩
  intro nowUs frame hframe
  generalize (reassembler.run (.create frameIntervalUs) ops).1 = s at hkept hframe ⊢
  have hpop := Reassembler.popReady_pops s nowUs
  generalize s.popReady nowUs = r at hpop hframe
  cases hpop with
  | waits hdrops hnext => cases hframe
  | @delivers s' evs id f hdrops hfirst hcomplete hnext =>
    have hmem := hdrops.mem_pending (Map.first?_mem hfirst)
    have hexact := hkept.exact _ hmem
    rw [← Option.some.inj hframe]
    exact ⟨f, hmem, hexact.length, hexact.complete hcomplete, rfl⟩

/-- A key frame of one packet comes in and goes out. -/
theorem reassembler_exact_one :
    let ops : List ReassemblerOp := [.push ⟨⟨3, 9, 0, 1⟩, true, true, [7]⟩ 100, .popReady 200]
    returnedIds (reassembler.run (.create 16667) ops).2 = [3] ∧
      (returnedIds (reassembler.run (.create 16667) ops).2).Pairwise (· < ·) := by
  intro ops
  constructor
  · decide +kernel
  · apply (reassembler_exact 16667 ops _).1
    intro op hop
    rcases List.mem_cons.mp hop with rfl | hpop
    · refine ⟨⟨1, .videoPacket, 3, .video, 0⟩,
        putU32 3 ++ putU64 9 ++ putU16 0 ++ putU16 1 ++ [7], ?_⟩
      decide
    · rw [List.mem_singleton.mp hpop]
      exact trivial

end Deskhub
