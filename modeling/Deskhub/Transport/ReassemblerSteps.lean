import Deskhub.Transport.Reassembler

/-!
# What a step of the reassembler can do

Each call moves pending frames in one of three ways: it gives up the oldest ones,
it changes or adds the frame of the packet, it delivers the oldest one. The
lemmas here say so once, for the invariants that follow.
-/

namespace Deskhub

open OrdMap

namespace Reassembler

@[simp] theorem notePush_pending (s : Reassembler) (nowUs : UInt64) :
    (s.notePush nowUs).pending = s.pending := rfl

@[simp] theorem notePush_barrier (s : Reassembler) (nowUs : UInt64) :
    (s.notePush nowUs).barrier = s.barrier := rfl

@[simp] theorem noteLatePacket_pending (s : Reassembler) (id : UInt32) (nowUs : UInt64) :
    (s.noteLatePacket id nowUs).pending = s.pending := by
  unfold noteLatePacket
  split <;> rfl

@[simp] theorem noteLatePacket_barrier (s : Reassembler) (id : UInt32) (nowUs : UInt64) :
    (s.noteLatePacket id nowUs).barrier = s.barrier := by
  unfold noteLatePacket
  split <;> rfl

@[simp] theorem keep_pending (s : Reassembler) (id : UInt32) (changed : Pending × Bool) :
    (s.keep id changed).pending = s.pending.insert id changed.1 := rfl

@[simp] theorem keep_barrier (s : Reassembler) (id : UInt32) (changed : Pending × Bool) :
    (s.keep id changed).barrier = s.barrier := rfl

theorem refuses_congr {s s' : Reassembler} (h : s'.barrier = s.barrier) (id : UInt32) :
    s'.refuses id = s.refuses id := by
  simp only [refuses, h]

/-! ## Giving frames up -/

/-- The barrier that `Drop` leaves. -/
theorem drop_barrier (s : Reassembler) (id : UInt32) (f : Pending) (reason : DropReason)
    (nowUs : UInt64) :
    (s.drop id f reason nowUs).1.barrier = if s.refuses id then s.barrier else some id := by
  unfold drop
  cases h : decide (reason ≠ .preIdr) <;> rfl

@[simp] theorem drop_pending (s : Reassembler) (id : UInt32) (f : Pending) (reason : DropReason)
    (nowUs : UInt64) : (s.drop id f reason nowUs).1.pending = s.pending.erase id := by
  unfold drop
  cases h : decide (reason ≠ .preIdr) <;> rfl

/-- A drop leaves what `PopReady` decides by as it was. -/
theorem headVerdict_drop (s : Reassembler) (id : UInt32) (f : Pending) (reason : DropReason)
    (nowUs t : UInt64) (g : Pending) (newer : List (UInt32 × Pending)) :
    (s.drop id f reason nowUs).1.headVerdict g newer t = s.headVerdict g newer t := by
  unfold drop
  cases h : decide (reason ≠ .preIdr) <;> rfl

/-- A drop reports the frame, and after that at most a lost reference. -/
theorem drop_events (s : Reassembler) (id : UInt32) (f : Pending) (reason : DropReason)
    (nowUs : UInt64) :
    ∃ info, info.frameId = id ∧
      ((s.drop id f reason nowUs).2 = [.frameDrop info] ∨
        (s.drop id f reason nowUs).2 = [.frameDrop info, .referenceLost id]) := by
  unfold drop
  cases h : decide (reason ≠ .preIdr)
  · exact ⟨_, rfl, Or.inl rfl⟩
  · exact ⟨_, rfl, Or.inr rfl⟩

/-- `s` gives up some of its oldest frames, one after the other, and becomes `s'`. -/
inductive GivesUp : Reassembler → List ReassemblerEvent → Reassembler → Prop where
  | refl (s : Reassembler) : GivesUp s [] s
  | drop {s s' : Reassembler} {evs : List ReassemblerEvent} {id : UInt32} {f : Pending}
      (reason : DropReason) (nowUs : UInt64) (hfirst : s.pending.first? = some (id, f))
      (rest : GivesUp (s.drop id f reason nowUs).1 evs s') :
      GivesUp s ((s.drop id f reason nowUs).2 ++ evs) s'

theorem evict_givesUp (n : Nat) (s : Reassembler) (nowUs : UInt64) :
    GivesUp s (evict n s nowUs).2 (evict n s nowUs).1 := by
  induction n generalizing s with
  | zero => exact .refl s
  | succ n ih =>
    unfold evict
    split
    · exact .refl s
    · cases hfirst : s.pending.first? with
      | none => exact .refl s
      | some p => exact .drop .evicted nowUs hfirst (ih _)

/-- Giving up frames adds none. -/
theorem GivesUp.mem_pending {s s' : Reassembler} {evs : List ReassemblerEvent}
    (h : GivesUp s evs s') {p : UInt32 × Pending} (hp : p ∈ s'.pending.entries) :
    p ∈ s.pending.entries := by
  induction h with
  | refl s => exact hp
  | drop reason nowUs hfirst rest ih =>
    have hmem := ih hp
    rw [drop_pending] at hmem
    exact (Map.mem_erase.mp hmem).2

/-- The frames given up are older than the ones that stay. -/
theorem GivesUp.refuses_of_mem {s s' : Reassembler} {evs : List ReassemblerEvent}
    (h : GivesUp s evs s') {p : UInt32 × Pending} (hp : p ∈ s'.pending.entries)
    (hfree : s.refuses p.1 = false) : s'.refuses p.1 = false := by
  induction h with
  | refl s => exact hfree
  | @drop s s' evs id f reason nowUs hfirst rest ih =>
    refine ih hp ?_
    have hmem := rest.mem_pending hp
    rw [drop_pending] at hmem
    obtain ⟨hne, hmem⟩ := Map.mem_erase.mp hmem
    have hlt : id < p.1 := lt_of_le_of_ne (Map.first?_le hfirst hmem) (Ne.symm hne)
    by_cases hrefuse : s.refuses id = true
    · rw [refuses_congr ((drop_barrier s id f reason nowUs).trans (if_pos hrefuse)), hfree]
    · simp [refuses, (drop_barrier s id f reason nowUs).trans (if_neg hrefuse), hlt]

/-! ## Taking a packet in -/

/-- `Slot` refuses the packet, finds the frame of the packet, or makes it after
evicting what is in the way. -/
theorem slot_cases (s : Reassembler) (id : UInt32) (pktCount : UInt16) (timestampUs nowUs : UInt64) :
    (s.slot id pktCount timestampUs nowUs = (s, [], none)) ∨
    (∃ f, s.refuses id = false ∧ s.pending.find? id = some f ∧ f.pktCount = pktCount ∧
      s.slot id pktCount timestampUs nowUs =
        (s.store id { f with lastPushUs := nowUs }, [], some { f with lastPushUs := nowUs })) ∨
    (∃ s' evs, s.refuses id = false ∧ s.pending.find? id = none ∧ GivesUp s evs s' ∧
      s.slot id pktCount timestampUs nowUs =
        (s'.store id { fresh pktCount timestampUs nowUs with lastPushUs := nowUs }, evs,
          some { fresh pktCount timestampUs nowUs with lastPushUs := nowUs })) := by
  cases hrefuse : s.refuses id with
  | true =>
    left
    simp [slot, hrefuse]
  | false =>
    cases hfind : s.pending.find? id with
    | some f =>
      by_cases hcount : f.pktCount = pktCount
      · exact Or.inr (Or.inl ⟨f, rfl, rfl, hcount, by simp [slot, hrefuse, hfind, hcount]⟩)
      · exact Or.inl (by simp [slot, hrefuse, hfind, hcount])
    | none =>
      refine Or.inr (Or.inr ⟨_, _, rfl, rfl, evict_givesUp s.pending.size s nowUs, ?_⟩)
      simp [slot, hrefuse, hfind, store, fresh, Map.insert_insert]

/-- What a packet of frame `id` does: nothing to the pending frames, or it changes
the frame by `upd`, or it makes the frame after giving up the oldest ones. -/
inductive TakesIn (s : Reassembler) (id : UInt32) (pktCount : UInt16) (timestampUs nowUs : UInt64)
    (upd : Pending → Pending) : Reassembler × List ReassemblerEvent → Prop where
  | ignored {s' : Reassembler} (hpending : s'.pending = s.pending)
      (hbarrier : s'.barrier = s.barrier) : TakesIn s id pktCount timestampUs nowUs upd (s', [])
  | changed {s' : Reassembler} {f : Pending} (hfree : s.refuses id = false)
      (hfind : s.pending.find? id = some f) (hcount : f.pktCount = pktCount)
      (hpending : s'.pending = s.pending.insert id (upd { f with lastPushUs := nowUs }))
      (hbarrier : s'.barrier = s.barrier) : TakesIn s id pktCount timestampUs nowUs upd (s', [])
  | added {s₀ s₁ s' : Reassembler} {evs : List ReassemblerEvent} (hfree : s.refuses id = false)
      (hfind : s.pending.find? id = none)
      (hsame : s₀.pending = s.pending) (hsame' : s₀.barrier = s.barrier)
      (hevict : GivesUp s₀ evs s₁)
      (hpending : s'.pending =
        s₁.pending.insert id (upd { fresh pktCount timestampUs nowUs with lastPushUs := nowUs }))
      (hbarrier : s'.barrier = s₁.barrier) : TakesIn s id pktCount timestampUs nowUs upd (s', evs)

/-- Taking the frame `Slot` finds and writing it back changed. -/
theorem takesIn_of_slot (s₀ : Reassembler) {s : Reassembler} (id : UInt32) (pktCount : UInt16)
    (timestampUs nowUs : UInt64) (upd : Pending → Pending × Bool)
    (hpending : s₀.pending = s.pending) (hbarrier : s₀.barrier = s.barrier) :
    TakesIn s id pktCount timestampUs nowUs (fun f => (upd f).1)
      (match (s₀.slot id pktCount timestampUs nowUs).2.2 with
        | none =>
            ((s₀.slot id pktCount timestampUs nowUs).1, (s₀.slot id pktCount timestampUs nowUs).2.1)
        | some f =>
            ((s₀.slot id pktCount timestampUs nowUs).1.keep id (upd f),
              (s₀.slot id pktCount timestampUs nowUs).2.1)) := by
  rcases slot_cases s₀ id pktCount timestampUs nowUs with
    heq | ⟨f, hfree, hfind, hcount, heq⟩ | ⟨s₁, evs, hfree, hfind, hevict, heq⟩
  · rw [heq]
    exact .ignored hpending hbarrier
  · rw [heq]
    rw [refuses_congr hbarrier] at hfree
    rw [hpending] at hfind
    refine .changed hfree hfind hcount ?_ hbarrier
    simp [store, Map.insert_insert, hpending]
  · rw [heq]
    rw [refuses_congr hbarrier] at hfree
    rw [hpending] at hfind
    refine .added hfree hfind hpending hbarrier hevict ?_ rfl
    simp [store, Map.insert_insert]

theorem push_takesIn (s : Reassembler) (pkt : VideoPacketView) (nowUs : UInt64) :
    TakesIn s pkt.hdr.frameId pkt.hdr.pktCount pkt.hdr.timestampUs nowUs
      (fun f => (f.accept pkt).1) (s.push pkt nowUs) := by
  unfold push
  by_cases hempty : pkt.payload = []
  · simp only [hempty, if_true]
    exact .ignored rfl rfl
  · simp only [hempty, if_false]
    refine takesIn_of_slot _ _ _ _ _ (fun f => f.accept pkt) ?_ ?_
    · split <;> simp
    · split <;> simp

theorem pushFec_takesIn (s : Reassembler) (pkt : FecPacketView) (nowUs : UInt64) :
    TakesIn s pkt.hdr.frameId pkt.hdr.pktCount pkt.hdr.timestampUs nowUs
      (fun f => (f.acceptFec pkt).1) (s.pushFec pkt nowUs) := by
  unfold pushFec
  by_cases hshort : pkt.parity.length < kFecLenPrefix
  · simp only [hshort, if_true]
    exact .ignored rfl rfl
  · simp only [hshort, if_false]
    exact takesIn_of_slot _ _ _ _ _ (fun f => f.acceptFec pkt) rfl rfl

/-! ## Delivery -/

/-- The id `PopReady` gets to deliver among `entries`: that of the first entry it
does not give up. -/
def nextDelivered (s : Reassembler) (nowUs : UInt64) : List (UInt32 × Pending) → Option UInt32
  | [] => none
  | (id, f) :: rest =>
      match s.headVerdict f rest nowUs with
      | .deliver => some id
      | .wait => none
      | .drop _ => nextDelivered s nowUs rest

theorem nextDelivered_drop (s : Reassembler) (id : UInt32) (f : Pending) (reason : DropReason)
    (nowUs t : UInt64) (entries : List (UInt32 × Pending)) :
    (s.drop id f reason nowUs).1.nextDelivered t entries = s.nextDelivered t entries := by
  induction entries with
  | nil => rfl
  | cons p rest ih => simp only [nextDelivered, headVerdict_drop, ih]

/-- A frame is delivered only when it is complete. -/
theorem complete_of_deliver {s : Reassembler} {f : Pending} {newer : List (UInt32 × Pending)}
    {nowUs : UInt64} (h : s.headVerdict f newer nowUs = .deliver) : f.complete = true := by
  unfold headVerdict at h
  grind

/-- `PopReady` gives up some of the oldest frames, and then waits or delivers the
frame that is the oldest by then. -/
inductive Pops (s : Reassembler) (nowUs : UInt64) :
    Reassembler × List ReassemblerEvent × Option Frame → Prop where
  | waits {s' : Reassembler} {evs : List ReassemblerEvent} (hdrops : GivesUp s evs s')
      (hnext : s.nextDelivered nowUs s.pending.entries = none) : Pops s nowUs (s', evs, none)
  | delivers {s' : Reassembler} {evs : List ReassemblerEvent} {id : UInt32} {f : Pending}
      (hdrops : GivesUp s evs s') (hfirst : s'.pending.first? = some (id, f))
      (hcomplete : f.complete = true)
      (hnext : s.nextDelivered nowUs s.pending.entries = some id) :
      Pops s nowUs ((s'.deliver id f).1, evs, some (s'.deliver id f).2)

theorem popLoop_pops (n : Nat) (s : Reassembler) (nowUs : UInt64) (hn : s.pending.size ≤ n) :
    Pops s nowUs (popLoop n s nowUs) := by
  induction n generalizing s with
  | zero =>
    have hnil : s.pending.entries = [] := List.length_eq_zero_iff.mp (Nat.le_zero.mp hn)
    exact .waits (.refl s) (by simp [hnil, nextDelivered])
  | succ n ih =>
    unfold popLoop
    cases hfirst : s.pending.first? with
    | none =>
      have hnil : s.pending.entries = [] := List.head?_eq_none_iff.mp hfirst
      exact .waits (.refl s) (by simp [hnil, nextDelivered])
    | some p =>
      obtain ⟨id, f⟩ := p
      have hentries : s.pending.entries = (id, f) :: s.pending.entries.tail :=
        (List.cons_head?_tail hfirst).symm
      cases hverdict : s.headVerdict f s.pending.entries.tail nowUs with
      | wait =>
        simp only [hverdict]
        refine .waits (.refl s) ?_
        rw [hentries]
        simp [nextDelivered, hverdict]
      | deliver =>
        simp only [hverdict]
        refine .delivers (.refl s) hfirst (complete_of_deliver hverdict) ?_
        rw [hentries]
        simp [nextDelivered, hverdict]
      | drop reason =>
        simp only [hverdict]
        have hsize : (s.pending.erase id).size + 1 = s.pending.size := Map.size_erase_first hfirst
        have hnext : s.nextDelivered nowUs s.pending.entries =
            (s.drop id f reason nowUs).1.nextDelivered nowUs
              (s.drop id f reason nowUs).1.pending.entries := by
          rw [nextDelivered_drop, drop_pending, Map.erase_first hfirst, hentries]
          simp [nextDelivered, hverdict]
        have hrest := ih (s.drop id f reason nowUs).1 (by
          simp only [drop_pending]
          omega)
        generalize popLoop n (s.drop id f reason nowUs).1 nowUs = r at hrest
        cases hrest with
        | waits hdrops hnone =>
          exact .waits (.drop reason nowUs hfirst hdrops) (hnext.trans hnone)
        | delivers hdrops hfirst' hcomplete hsome =>
          exact .delivers (.drop reason nowUs hfirst hdrops) hfirst' hcomplete (hnext.trans hsome)

theorem popReady_pops (s : Reassembler) (nowUs : UInt64) : Pops s nowUs (s.popReady nowUs) :=
  popLoop_pops _ s nowUs le_rfl

/-! ## Asking again -/

theorem planScan_mem {s : Reassembler} {nowUs rttUs : UInt64} {room : Nat}
    {entries : List (UInt32 × Pending)} {id : UInt32} {f : Pending} {indices : List UInt16}
    (h : s.planScan nowUs rttUs room entries = some (id, f, indices)) : (id, f) ∈ entries := by
  induction entries with
  | nil => simp [planScan] at h
  | cons p rest ih =>
    unfold planScan at h
    grind

/-- `PlanNack` only notes when a frame was asked for. -/
theorem planNack_cases (s : Reassembler) (nowUs rttUs : UInt64) (room : Nat) :
    (s.planNack nowUs rttUs room).1 = s ∨
      ∃ id f, (id, f) ∈ s.pending.entries ∧
        (s.planNack nowUs rttUs room).1 = s.store id { f with lastNackUs := nowUs } := by
  unfold planNack
  split
  · exact Or.inl rfl
  · split
    · exact Or.inl rfl
    · next id f indices hscan => exact Or.inr ⟨id, f, planScan_mem hscan, rfl⟩

end Reassembler

end Deskhub
