import Deskhub.Transport.ReassemblerSteps

/-!
# Each frame id has one outcome

A frame that was reported dropped should stay dropped: its id is at or below the
barrier, and nothing at or below the barrier is let in. `Drop` only ever raises
the barrier, but `PopReady` sets it to the id it delivers, and an eviction can
have raised it past a frame that is still pending. The runs below are split by
whether a `PopReady` delivers such a frame.
-/

namespace Deskhub

open OrdMap

namespace ReassemblerEvent

/-- The event reports frame `id` dropped. -/
def Drops (e : ReassemblerEvent) (id : UInt32) : Prop :=
  ∃ info, e = .frameDrop info ∧ info.frameId = id

/-- The event is an outcome of frame `id`: the frame is dropped or returned. -/
def Settles (e : ReassemblerEvent) (id : UInt32) : Prop :=
  e.Drops id ∨ ∃ frame, e = .returned frame ∧ frame.frameId = id

@[simp] theorem drops_frameDrop (info : FrameDropInfo) (id : UInt32) :
    (frameDrop info).Drops id ↔ info.frameId = id := by
  simp [Drops]

@[simp] theorem not_drops_returned (frame : Frame) (id : UInt32) : ¬ (returned frame).Drops id := by
  simp [Drops]

@[simp] theorem not_drops_referenceLost (i id : UInt32) : ¬ (referenceLost i).Drops id := by
  simp [Drops]

@[simp] theorem settles_frameDrop (info : FrameDropInfo) (id : UInt32) :
    (frameDrop info).Settles id ↔ info.frameId = id := by
  simp [Settles]

@[simp] theorem settles_returned (frame : Frame) (id : UInt32) :
    (returned frame).Settles id ↔ frame.frameId = id := by
  simp [Settles]

@[simp] theorem not_settles_referenceLost (i id : UInt32) : ¬ (referenceLost i).Settles id := by
  simp [Settles]

end ReassemblerEvent

/-- No frame that was dropped is dropped again or returned later on. -/
def NoSecondOutcome (out : List ReassemblerEvent) : Prop :=
  out.Pairwise (fun e e' => ∀ id, e.Drops id → ¬ e'.Settles id)

namespace Reassembler

/-- The barrier of `s'` is at or above the barrier of `s`. -/
def BarrierLe (s s' : Reassembler) : Prop :=
  ∀ b, s.barrier = some b → ∃ b', s'.barrier = some b' ∧ b ≤ b'

/-- Before the call: a `PopReady` is not about to deliver a frame at or below the barrier. -/
def DeliversAbove (s : Reassembler) : ReassemblerOp → Prop
  | .popReady nowUs => ∀ id, s.nextDelivered nowUs s.pending.entries = some id → s.refuses id = false
  | _ => True

/-! ## The barrier -/

theorem refuses_eq_true {s : Reassembler} {id : UInt32} :
    s.refuses id = true ↔ ∃ b, s.barrier = some b ∧ id ≤ b := by
  unfold refuses
  cases s.barrier with
  | none => simp
  | some b => simp

theorem BarrierLe.refl (s : Reassembler) : s.BarrierLe s := fun b h => ⟨b, h, le_rfl⟩

theorem BarrierLe.trans {s s' s'' : Reassembler} (h : s.BarrierLe s') (h' : s'.BarrierLe s'') :
    s.BarrierLe s'' := by
  intro b hb
  obtain ⟨b', hb', hle⟩ := h b hb
  obtain ⟨b'', hb'', hle'⟩ := h' b' hb'
  exact ⟨b'', hb'', le_trans hle hle'⟩

/-- Moving the barrier up refuses nothing less. -/
theorem BarrierLe.refuses {s s' : Reassembler} (h : s.BarrierLe s') {id : UInt32}
    (hid : s.refuses id = true) : s'.refuses id = true := by
  obtain ⟨b, hb, hle⟩ := refuses_eq_true.mp hid
  obtain ⟨b', hb', hle'⟩ := h b hb
  exact refuses_eq_true.mpr ⟨b', hb', le_trans hle hle'⟩

theorem BarrierLe.of_eq {s s' : Reassembler} (h : s'.barrier = s.barrier) : s.BarrierLe s' := by
  intro b hb
  exact ⟨b, h.trans hb, le_rfl⟩

/-- `Drop` never lowers the barrier. -/
theorem drop_barrierLe (s : Reassembler) (id : UInt32) (f : Pending) (reason : DropReason)
    (nowUs : UInt64) : s.BarrierLe (s.drop id f reason nowUs).1 := by
  intro b hb
  rw [drop_barrier]
  split
  · exact ⟨b, hb, le_rfl⟩
  · next hrefuse =>
    refine ⟨id, rfl, ?_⟩
    rw [refuses_eq_true] at hrefuse
    push Not at hrefuse
    exact le_of_lt (hrefuse b hb)

/-- A dropped frame is refused from then on. -/
theorem drop_refuses (s : Reassembler) (id : UInt32) (f : Pending) (reason : DropReason)
    (nowUs : UInt64) : (s.drop id f reason nowUs).1.refuses id = true := by
  by_cases hrefuse : s.refuses id = true
  · exact (drop_barrierLe s id f reason nowUs).refuses hrefuse
  · refine refuses_eq_true.mpr ⟨id, ?_, le_rfl⟩
    rw [drop_barrier, if_neg hrefuse]

theorem GivesUp.barrierLe {s s' : Reassembler} {evs : List ReassemblerEvent}
    (h : GivesUp s evs s') : s.BarrierLe s' := by
  induction h with
  | refl s => exact .refl s
  | drop reason nowUs hfirst rest ih => exact (drop_barrierLe _ _ _ reason nowUs).trans ih

/-! ## The frame at the barrier is never pending -/

/-- The id of the barrier itself has no pending frame. -/
def BarrierGone (s : Reassembler) : Prop :=
  ∀ b, s.barrier = some b → s.pending.find? b = none

theorem find?_erase_none {s : Reassembler} {id b : UInt32} (h : s.pending.find? b = none) :
    (s.pending.erase id).find? b = none := by
  rw [Map.find?_erase]
  split
  · rfl
  · exact h

theorem GivesUp.barrierGone {s s' : Reassembler} {evs : List ReassemblerEvent}
    (h : GivesUp s evs s') (hs : s.BarrierGone) : s'.BarrierGone := by
  induction h with
  | refl s => exact hs
  | @drop s s' evs id f reason nowUs hfirst rest ih =>
    refine ih ?_
    intro b hb
    rw [drop_barrier] at hb
    rw [drop_pending]
    split at hb
    · exact find?_erase_none (hs b hb)
    · obtain rfl : id = b := Option.some.inj hb
      exact Map.find?_erase_self _ _

/-- Where the barrier is after frames were given up: where it was, or at one of them. -/
theorem GivesUp.barrier_cases {s s' : Reassembler} {evs : List ReassemblerEvent}
    (h : GivesUp s evs s') :
    s'.barrier = s.barrier ∨ ∃ p ∈ s.pending.entries, s'.barrier = some p.1 := by
  induction h with
  | refl s => exact Or.inl rfl
  | @drop s s' evs id f reason nowUs hfirst rest ih =>
    rcases ih with heq | ⟨p, hp, heq⟩
    · rw [drop_barrier] at heq
      split at heq
      · exact Or.inl heq
      · exact Or.inr ⟨(id, f), Map.first?_mem hfirst, heq⟩
    · rw [drop_pending] at hp
      exact Or.inr ⟨p, (Map.mem_erase.mp hp).2, heq⟩

theorem ne_of_not_refused {s : Reassembler} {id b : UInt32} (hfree : s.refuses id = false)
    (hb : s.barrier = some b) : b ≠ id := by
  rintro rfl
  rw [refuses_eq_true.mpr ⟨b, hb, le_rfl⟩] at hfree
  cases hfree

theorem TakesIn.barrierGone {s : Reassembler} {id : UInt32} {n : UInt16} {ts t : UInt64}
    {upd : Pending → Pending} {r : Reassembler × List ReassemblerEvent}
    (h : TakesIn s id n ts t upd r) (hs : s.BarrierGone) : r.1.BarrierGone := by
  intro b hb
  cases h with
  | ignored hpending hbarrier =>
    rw [hpending]
    exact hs b (hbarrier.symm.trans hb)
  | changed hfree hfind hcount hpending hbarrier =>
    have hb := hbarrier.symm.trans hb
    rw [hpending, Map.find?_insert, if_neg (ne_of_not_refused hfree hb)]
    exact hs b hb
  | @added s₀ s₁ s' evs hfree hfind hsame hsame' hevict hpending hbarrier =>
    have hb := hbarrier.symm.trans hb
    have hs₀ : s₀.BarrierGone := fun c hc => hsame ▸ hs c (hsame' ▸ hc)
    have hne : b ≠ id := by
      rcases hevict.barrier_cases with heq | ⟨p, hp, heq⟩
      · exact ne_of_not_refused hfree (hsame' ▸ heq ▸ hb)
      · rintro rfl
        obtain rfl : p.1 = b := Option.some.inj (heq.symm.trans hb)
        exact Map.find?_eq_none.mp hfind p.2 (hsame ▸ hp)
    rw [hpending, Map.find?_insert, if_neg hne]
    exact hevict.barrierGone hs₀ b hb

theorem Pops.barrierGone {s : Reassembler} {t : UInt64}
    {r : Reassembler × List ReassemblerEvent × Option Frame} (h : Pops s t r)
    (hs : s.BarrierGone) : r.1.BarrierGone := by
  cases h with
  | waits hdrops hnext => exact hdrops.barrierGone hs
  | @delivers s' evs id f hdrops hfirst hcomplete hnext =>
    intro b hb
    obtain rfl : id = b := Option.some.inj hb
    exact Map.find?_erase_self _ _

/-! ## The ledger of outcomes -/

/-- What is known of the dropped frames: none had a second outcome, all are at or
below the barrier, and none is pending. -/
structure Settled (s : Reassembler) (out : List ReassemblerEvent) : Prop where
  once : NoSecondOutcome out
  refused : ∀ e ∈ out, ∀ id, e.Drops id → s.refuses id = true
  gone : ∀ e ∈ out, ∀ id, e.Drops id → s.pending.find? id = none

/-- A report about a pending frame is its first one. -/
theorem Settled.once_append {s : Reassembler} {out evs : List ReassemblerEvent} {id : UInt32}
    {f : Pending} (h : s.Settled out) (hmem : (id, f) ∈ s.pending.entries)
    (hevs : NoSecondOutcome evs) (hown : ∀ e ∈ evs, ∀ i, e.Settles i → i = id) :
    NoSecondOutcome (out ++ evs) := by
  refine List.pairwise_append.mpr ⟨h.once, hevs, ?_⟩
  intro e he e' he' i hdrop hsettle
  obtain rfl := hown e' he' i hsettle
  exact Map.find?_eq_none.mp (h.gone e he i hdrop) f hmem

/-- Dropping a pending frame keeps the ledger. -/
theorem Settled.drop {s : Reassembler} {out : List ReassemblerEvent} {id : UInt32} {f : Pending}
    (h : s.Settled out) (hmem : (id, f) ∈ s.pending.entries) (reason : DropReason)
    (nowUs : UInt64) :
    (s.drop id f reason nowUs).1.Settled (out ++ (s.drop id f reason nowUs).2) := by
  obtain ⟨info, rfl, hevs⟩ := drop_events s id f reason nowUs
  have hbarrier := drop_barrier s info.frameId f reason nowUs
  have hdrops : ∀ e ∈ (s.drop info.frameId f reason nowUs).2, ∀ i, e.Settles i → i = info.frameId := by
    intro e he i hi
    rcases hevs with hevs | hevs <;> rw [hevs] at he <;> simp at he
    · subst he
      simpa [eq_comm] using hi
    · rcases he with rfl | rfl
      · simpa [eq_comm] using hi
      · simp at hi
  refine ⟨h.once_append hmem ?_ hdrops, ?_, ?_⟩
  · rcases hevs with hevs | hevs <;> rw [hevs] <;> simp [NoSecondOutcome]
  · intro e he i hi
    rcases List.mem_append.mp he with he | he
    · exact (drop_barrierLe s _ f reason nowUs).refuses (h.refused e he i hi)
    · obtain rfl := hdrops e he i (Or.inl hi)
      exact drop_refuses s _ f reason nowUs
  · intro e he i hi
    rw [drop_pending]
    rcases List.mem_append.mp he with he | he
    · exact find?_erase_none (h.gone e he i hi)
    · obtain rfl := hdrops e he i (Or.inl hi)
      exact Map.find?_erase_self _ _

theorem Settled.givesUp {s s' : Reassembler} {out evs : List ReassemblerEvent} (h : s.Settled out)
    (hdrops : GivesUp s evs s') : s'.Settled (out ++ evs) := by
  induction hdrops generalizing out with
  | refl s => simpa using h
  | drop reason nowUs hfirst rest ih =>
    rw [← List.append_assoc]
    exact ih (h.drop (Map.first?_mem hfirst) reason nowUs)

/-- The events of giving frames up are about frames that were pending. -/
theorem GivesUp.drops_pending {s s' : Reassembler} {evs : List ReassemblerEvent}
    (h : GivesUp s evs s') : ∀ e ∈ evs, ∀ id, e.Drops id → ∃ f, (id, f) ∈ s.pending.entries := by
  induction h with
  | refl s => simp
  | @drop s s' evs id f reason nowUs hfirst rest ih =>
    intro e he i hi
    rcases List.mem_append.mp he with he | he
    · obtain ⟨info, hid, hevs⟩ := drop_events s id f reason nowUs
      have : i = id := by
        rcases hevs with hevs | hevs <;> rw [hevs] at he <;> simp at he
        · subst he
          simpa [hid, eq_comm] using hi
        · rcases he with rfl | rfl
          · simpa [hid, eq_comm] using hi
          · simp at hi
      exact ⟨f, this ▸ Map.first?_mem hfirst⟩
    · obtain ⟨g, hg⟩ := ih e he i hi
      rw [drop_pending] at hg
      exact ⟨g, (Map.mem_erase.mp hg).2⟩

/-- A ledger survives a change of the state that keeps the barrier and adds no
frame that was dropped. -/
theorem Settled.congr {s s' : Reassembler} {out : List ReassemblerEvent} (h : s.Settled out)
    (hbarrier : s'.barrier = s.barrier)
    (hgone : ∀ e ∈ out, ∀ id, e.Drops id → s'.pending.find? id = none) : s'.Settled out where
  once := h.once
  refused e he id hi := (refuses_congr hbarrier id).trans (h.refused e he id hi)
  gone := hgone

theorem Settled.insert {s s' : Reassembler} {out : List ReassemblerEvent} {id : UInt32}
    {f : Pending} (h : s.Settled out) (hbarrier : s'.barrier = s.barrier)
    (hpending : s'.pending = s.pending.insert id f)
    (hid : ∀ e ∈ out, ∀ i, e.Drops i → i ≠ id) : s'.Settled out := by
  refine h.congr hbarrier ?_
  intro e he i hi
  rw [hpending, Map.find?_insert, if_neg (hid e he i hi)]
  exact h.gone e he i hi

/-- A frame that may still come in was not dropped. -/
theorem Settled.ne_of_not_refused {s : Reassembler} {out : List ReassemblerEvent} {id : UInt32}
    (h : s.Settled out) (hfree : s.refuses id = false) : ∀ e ∈ out, ∀ i, e.Drops i → i ≠ id := by
  rintro e he i hi rfl
  rw [h.refused e he i hi] at hfree
  cases hfree

theorem Settled.takesIn {s : Reassembler} {out : List ReassemblerEvent} {id : UInt32} {n : UInt16}
    {ts t : UInt64} {upd : Pending → Pending} {r : Reassembler × List ReassemblerEvent}
    (h : s.Settled out) (hstep : TakesIn s id n ts t upd r) : r.1.Settled (out ++ r.2) := by
  cases hstep with
  | ignored hpending hbarrier =>
    simp only [List.append_nil]
    exact h.congr hbarrier (fun e he i hi => by rw [hpending]; exact h.gone e he i hi)
  | changed hfree hfind hcount hpending hbarrier =>
    simp only [List.append_nil]
    exact h.insert hbarrier hpending (h.ne_of_not_refused hfree)
  | @added s₀ s₁ s' evs hfree hfind hsame hsame' hevict hpending hbarrier =>
    have hs₀ : s₀.Settled out :=
      h.congr hsame' (fun e he i hi => by rw [hsame]; exact h.gone e he i hi)
    refine (hs₀.givesUp hevict).insert hbarrier hpending ?_
    intro e he i hi
    rcases List.mem_append.mp he with he | he
    · exact h.ne_of_not_refused hfree e he i hi
    · -- the frames evicted for it were pending, and it was not
      rintro rfl
      obtain ⟨g, hg⟩ := hevict.drops_pending e he i hi
      exact Map.find?_eq_none.mp hfind g (hsame ▸ hg)

/-- Delivering a frame above the barrier raises the barrier. -/
theorem deliver_barrierLe {s : Reassembler} {id : UInt32} {f : Pending}
    (hfree : s.refuses id = false) : s.BarrierLe (s.deliver id f).1 := by
  intro b hb
  refine ⟨id, rfl, ?_⟩
  have hlt : ¬ id ≤ b := by simpa [refuses, hb] using hfree
  exact le_of_lt (not_le.mp hlt)

theorem Settled.deliver {s : Reassembler} {out : List ReassemblerEvent} {id : UInt32} {f : Pending}
    (h : s.Settled out) (hmem : (id, f) ∈ s.pending.entries) (hfree : s.refuses id = false) :
    (s.deliver id f).1.Settled (out ++ [.returned (s.deliver id f).2]) := by
  refine ⟨h.once_append hmem ?_ ?_, ?_, ?_⟩
  · simp [NoSecondOutcome]
  · intro e he i hi
    obtain rfl := List.mem_singleton.mp he
    simpa [eq_comm, Reassembler.deliver] using hi
  · intro e he i hi
    rcases List.mem_append.mp he with he | he
    · exact (deliver_barrierLe hfree).refuses (h.refused e he i hi)
    · obtain rfl := List.mem_singleton.mp he
      simp at hi
  · intro e he i hi
    rcases List.mem_append.mp he with he | he
    · exact find?_erase_none (h.gone e he i hi)
    · obtain rfl := List.mem_singleton.mp he
      simp at hi

/-! ## Runs -/

/-- A pending frame is written back under its own id. -/
theorem BarrierGone.store {s : Reassembler} {id : UInt32} {f g : Pending} (h : s.BarrierGone)
    (hmem : (id, f) ∈ s.pending.entries) : (s.store id g).BarrierGone := by
  intro b hb
  have hgone := h b hb
  have hne : b ≠ id := by
    rintro rfl
    exact Map.find?_eq_none.mp hgone f hmem
  show (s.pending.insert id g).find? b = none
  rw [Map.find?_insert, if_neg hne]
  exact hgone

theorem Settled.store {s : Reassembler} {out : List ReassemblerEvent} {id : UInt32}
    {f g : Pending} (h : s.Settled out) (hmem : (id, f) ∈ s.pending.entries) :
    (s.store id g).Settled out := by
  refine h.insert rfl rfl ?_
  rintro e he i hi rfl
  exact Map.find?_eq_none.mp (h.gone e he i hi) f hmem

theorem step_barrierGone {s : Reassembler} (hs : s.BarrierGone) (op : ReassemblerOp) :
    (reassembler.step s op).1.BarrierGone := by
  cases op with
  | push pkt nowUs => exact (push_takesIn s pkt nowUs).barrierGone hs
  | pushFec pkt nowUs => exact (pushFec_takesIn s pkt nowUs).barrierGone hs
  | popReady nowUs => exact (popReady_pops s nowUs).barrierGone hs
  | planNack nowUs rttUs room =>
    show (s.planNack nowUs rttUs room).1.BarrierGone
    rcases planNack_cases s nowUs rttUs room with heq | ⟨id, f, hmem, heq⟩
    · rw [heq]
      exact hs
    · rw [heq]
      exact hs.store hmem
  | setFps fps =>
    show (s.setFps fps).BarrierGone
    unfold setFps
    split <;> exact hs
  | setRttUs rttUs => exact hs

theorem TakesIn.barrierLe {s : Reassembler} {id : UInt32} {n : UInt16} {ts t : UInt64}
    {upd : Pending → Pending} {r : Reassembler × List ReassemblerEvent}
    (h : TakesIn s id n ts t upd r) : s.BarrierLe r.1 := by
  cases h with
  | ignored hpending hbarrier => exact .of_eq hbarrier
  | changed hfree hfind hcount hpending hbarrier => exact .of_eq hbarrier
  | added hfree hfind hsame hsame' hevict hpending hbarrier =>
    exact (BarrierLe.of_eq hsame').trans (hevict.barrierLe.trans (.of_eq hbarrier))

/-- One step keeps the ledger and the barrier, unless it is a `PopReady` that
delivers a frame at or below the barrier. -/
theorem step_settled {s : Reassembler} {out : List ReassemblerEvent} (h : s.Settled out)
    (op : ReassemblerOp) (habove : s.DeliversAbove op) :
    (reassembler.step s op).1.Settled (out ++ (reassembler.step s op).2) ∧
      s.BarrierLe (reassembler.step s op).1 := by
  cases op with
  | push pkt nowUs => exact ⟨h.takesIn (push_takesIn s pkt nowUs), (push_takesIn s pkt nowUs).barrierLe⟩
  | pushFec pkt nowUs =>
    exact ⟨h.takesIn (pushFec_takesIn s pkt nowUs), (pushFec_takesIn s pkt nowUs).barrierLe⟩
  | popReady nowUs =>
    have hpop := popReady_pops s nowUs
    simp only [reassembler]
    generalize s.popReady nowUs = r at hpop
    cases hpop with
    | waits hdrops hnext =>
      simp only [Option.map_none, Option.toList_none, List.append_nil]
      exact ⟨h.givesUp hdrops, hdrops.barrierLe⟩
    | @delivers s' evs id f hdrops hfirst hcomplete hnext =>
      have hmem := Map.first?_mem hfirst
      have hfree := hdrops.refuses_of_mem hmem (habove id hnext)
      simp only [Option.map_some, Option.toList_some, ← List.append_assoc]
      exact ⟨(h.givesUp hdrops).deliver hmem hfree, hdrops.barrierLe.trans (deliver_barrierLe hfree)⟩
  | planNack nowUs rttUs room =>
    simp only [reassembler, List.append_nil]
    rcases planNack_cases s nowUs rttUs room with heq | ⟨id, f, hmem, heq⟩
    · rw [heq]
      exact ⟨h, .refl s⟩
    · rw [heq]
      exact ⟨h.store hmem, .of_eq rfl⟩
  | setFps fps =>
    simp only [reassembler, List.append_nil, setFps]
    split
    · exact ⟨h.congr rfl h.gone, .of_eq rfl⟩
    · exact ⟨h, .refl s⟩
  | setRttUs rttUs =>
    simp only [reassembler, List.append_nil]
    exact ⟨h.congr rfl h.gone, .of_eq rfl⟩

/-- A `PopReady` that delivers a frame at or below the barrier lowers it. -/
theorem not_barrierLe_of_delivers {s : Reassembler} (hs : s.BarrierGone) {nowUs : UInt64}
    {id : UInt32} (hnext : s.nextDelivered nowUs s.pending.entries = some id)
    (hrefuse : s.refuses id = true) : ¬ s.BarrierLe (reassembler.step s (.popReady nowUs)).1 := by
  intro hle
  obtain ⟨b, hb, hidb⟩ := refuses_eq_true.mp hrefuse
  obtain ⟨b', hb', hbb'⟩ := hle b hb
  have hpop := popReady_pops s nowUs
  simp only [reassembler] at hb'
  generalize s.popReady nowUs = r at hpop hb'
  cases hpop with
  | waits hdrops hnone =>
    rw [hnone] at hnext
    cases hnext
  | @delivers s' evs id' f hdrops hfirst hcomplete hsome =>
    obtain rfl : id' = id := Option.some.inj (hsome.symm.trans hnext)
    obtain rfl : id' = b' := Option.some.inj hb'
    -- the frame sits exactly at the barrier, where nothing is pending
    obtain rfl : id' = b := le_antisymm hidb hbb'
    exact Map.find?_eq_none.mp (hs id' hb) f (hdrops.mem_pending (Map.first?_mem hfirst))

/-- Every frame id has one outcome in the run, and no step lowers the barrier. -/
def OneOutcome (s : Reassembler) (ops : List ReassemblerOp) : Prop :=
  NoSecondOutcome (reassembler.run s ops).2 ∧
    ∀ pre op post, ops = pre ++ op :: post →
      (reassembler.run s pre).1.BarrierLe (reassembler.run s (pre ++ [op])).1

theorem create_settled (frameIntervalUs : UInt64) : (create frameIntervalUs).Settled [] :=
  ⟨List.Pairwise.nil, by simp, by simp⟩

theorem run_settled {frameIntervalUs : UInt64} {ops : List ReassemblerOp}
    (h : reassembler.Along (fun s _ op => s.DeliversAbove op) (create frameIntervalUs) ops) :
    (reassembler.run (create frameIntervalUs) ops).1.Settled
      (reassembler.run (create frameIntervalUs) ops).2 :=
  Machine.run_invariant Settled _ (create_settled frameIntervalUs)
    (fun _ _ op habove hs => (step_settled hs op habove).1) ops h

theorem run_barrierGone (frameIntervalUs : UInt64) (ops : List ReassemblerOp) :
    (reassembler.run (create frameIntervalUs) ops).1.BarrierGone := by
  refine Machine.run_invariant' (fun (s : Reassembler) _ => s.BarrierGone) ?_ ?_ ops
  · intro b hb
    cases hb
  · intro s out op hs
    exact step_barrierGone hs op

/-- A one-packet frame, or the first piece of a longer one. -/
def firstPiece (id : UInt32) (pktCount : UInt16) : ReassemblerOp :=
  .push ⟨⟨id, 0, 0, pktCount⟩, true, false, [1]⟩ 1

/-- Eight frames fill the table; frame 5 evicts frame 10 and is delivered, which
takes the barrier below 10; frame 10 then comes again, and is returned. -/
def revivingRun : List ReassemblerOp :=
  [10, 11, 12, 13, 14, 15, 16, 17].map (fun id => firstPiece id 2) ++
    [firstPiece 5 1, .popReady 1, firstPiece 10 1, .popReady 1]

end Reassembler

end Deskhub
