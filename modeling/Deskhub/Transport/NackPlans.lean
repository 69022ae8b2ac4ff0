import Deskhub.Transport.ReassemblerSteps
import Mathlib.Data.List.TakeDrop

/-!
# Asking for what is missing

`PlanNack` asks for pieces of one pending frame. What it asks for is read off the scan; how far
two requests for the same frame are apart follows from the times a frame keeps while it is
pending: when it began, and when it was asked for last.
-/

namespace Deskhub

open OrdMap

/-- The time a call gives. -/
def ReassemblerOp.nowUs? : ReassemblerOp → Option UInt64
  | .push _ nowUs => some nowUs
  | .pushFec _ nowUs => some nowUs
  | .popReady nowUs => some nowUs
  | .planNack nowUs _ _ => some nowUs
  | .setFps _ => none
  | .setRttUs _ => none

/-- The frame a call has a packet of. -/
def ReassemblerOp.frameId? : ReassemblerOp → Option UInt32
  | .push pkt _ => some pkt.hdr.frameId
  | .pushFec pkt _ => some pkt.hdr.frameId
  | _ => none

/-- The times the calls give do not go back. -/
def NondecreasingTimes (ops : List ReassemblerOp) : Prop :=
  ops.Pairwise fun a b => ∀ t t', a.nowUs? = some t → b.nowUs? = some t' → t ≤ t'

/-- Of two calls the later one has the later time. -/
theorem NondecreasingTimes.le {before after : List ReassemblerOp} {a b : ReassemblerOp}
    (h : NondecreasingTimes (before ++ a :: after)) (hb : b ∈ after) {t t' : UInt64} (ha : a.nowUs? = some t)
    (hb' : b.nowUs? = some t') : t ≤ t' :=
  (List.pairwise_cons.mp (List.pairwise_append.mp h).2.1).1 b hb t t' ha hb'

namespace Pending

/-- `f'` is `f` with packets taken in. -/
structure Grown (f f' : Pending) : Prop where
  firstSeenUs : f'.firstSeenUs = f.firstSeenUs
  lastNackUs : f'.lastNackUs = f.lastNackUs
  seen : f.maxIndexSeen ≤ f.pktCount → f'.maxIndexSeen ≤ f'.pktCount

theorem Grown.refl (f : Pending) : f.Grown f := ⟨rfl, rfl, id⟩

theorem Grown.trans {f g h : Pending} (hfg : f.Grown g) (hgh : g.Grown h) : f.Grown h :=
  ⟨hgh.firstSeenUs.trans hfg.firstSeenUs, hgh.lastNackUs.trans hfg.lastNackUs,
    fun hseen => hgh.seen (hfg.seen hseen)⟩

theorem grown_recover (f : Pending) (group : UInt8) : f.Grown (f.recover group).1 := by
  have hrecovered : ∀ f', f.tryRecover group = some f' → f.Grown f' := by
    intro f' hsome
    unfold tryRecover at hsome
    split at hsome
    · cases hsome
    · dsimp only at hsome
      split at hsome
      · cases hsome
      · split at hsome
        · split at hsome
          · cases hsome
          · split at hsome
            · cases hsome
            · cases hsome
              exact ⟨rfl, rfl, id⟩
        · cases hsome
  unfold recover
  split
  · exact .refl f
  · next f' hsome => exact hrecovered f' hsome

theorem grown_accept (f : Pending) (pkt : VideoPacketView) : f.Grown (f.accept pkt).1 := by
  unfold accept
  dsimp only
  split
  · exact .refl f
  · next hindex =>
    have hseen : f.Grown (if pkt.hdr.pktIndex > f.maxIndexSeen then
        { f with maxIndexSeen := pkt.hdr.pktIndex } else f) := by
      split
      · exact ⟨rfl, rfl, fun _ => UInt16.le_of_lt (UInt16.not_le.mp hindex)⟩
      · exact .refl f
    generalize (if pkt.hdr.pktIndex > f.maxIndexSeen then
      { f with maxIndexSeen := pkt.hdr.pktIndex } else f) = g at hseen
    split
    · exact hseen
    · split
      · exact hseen.trans ⟨rfl, rfl, id⟩
      · refine Grown.trans ?_ (grown_recover _ _)
        exact hseen.trans ⟨rfl, rfl, id⟩

theorem grown_acceptFec (f : Pending) (pkt : FecPacketView) : f.Grown (f.acceptFec pkt).1 := by
  have hmarked : f.Grown { f with idr := f.idr || pkt.idr } := ⟨rfl, rfl, id⟩
  unfold acceptFec
  dsimp only
  split
  · exact hmarked
  · refine Grown.trans ?_ (grown_recover _ _)
    exact hmarked.trans ⟨rfl, rfl, id⟩

end Pending

namespace Reassembler

variable {s : Reassembler}

/-! ## What is asked for -/

/-- The indices up to a limit that are missing, as many as there is room for. -/
def missingBelow (f : Pending) (limit room : Nat) : List Nat :=
  ((List.range limit).filter fun i => f.pieceAt i = []).take room

/-- The frame a scan finds, and what it asks for. -/
structure Found (s : Reassembler) (nowUs rttUs : UInt64) (room : Nat) (f : Pending) (indices : List UInt16) :
    Prop where
  incomplete : f.complete = false
  early : nowUs - f.firstSeenUs < s.hardTimeoutUs
  held : kNackHoldUs ≤ nowUs - f.firstSeenUs
  apart : f.lastNackUs = 0 ∨ max rttUs kNackMinIntervalUs ≤ nowUs - f.lastNackUs
  indices : ∃ limit : UInt16, (limit = f.pktCount ∨ limit = f.maxIndexSeen) ∧
    indices = (missingBelow f limit.toNat room).map UInt16.ofNat ∧ indices ≠ []

/-- The limit of a scan: the full count once the tail has stalled, else the highest index seen. -/
def scanLimit (s : Reassembler) (nowUs : UInt64) (f : Pending) : UInt16 :=
  if decide (nowUs - f.lastPushUs ≥ s.frameIntervalUs) then f.pktCount else f.maxIndexSeen

theorem planScan_cons (s : Reassembler) (nowUs rttUs : UInt64) (room : Nat) (id : UInt32) (f : Pending)
    (rest : List (UInt32 × Pending)) :
    s.planScan nowUs rttUs room ((id, f) :: rest) =
      if f.complete then s.planScan nowUs rttUs room rest
      else if nowUs - f.firstSeenUs ≥ s.hardTimeoutUs then s.planScan nowUs rttUs room rest
      else if nowUs - f.firstSeenUs < kNackHoldUs then none
      else if f.lastNackUs ≠ 0 ∧
          nowUs - f.lastNackUs < (if rttUs > kNackMinIntervalUs then rttUs else kNackMinIntervalUs) then none
      else if missingBelow f (s.scanLimit nowUs f).toNat room = [] then none
      else some (id, f, (missingBelow f (s.scanLimit nowUs f).toNat room).map UInt16.ofNat) := rfl

theorem planScan_found {nowUs rttUs : UInt64} {room : Nat} {entries : List (UInt32 × Pending)}
    {id : UInt32} {f : Pending} {indices : List UInt16}
    (h : s.planScan nowUs rttUs room entries = some (id, f, indices)) :
    s.Found nowUs rttUs room f indices := by
  induction entries with
  | nil => cases h
  | cons p rest ih =>
    rcases p with ⟨id', f'⟩
    rw [planScan_cons] at h
    by_cases hcomplete : f'.complete = true
    · rw [if_pos hcomplete] at h
      exact ih h
    rw [if_neg hcomplete] at h
    by_cases hlate : nowUs - f'.firstSeenUs ≥ s.hardTimeoutUs
    · rw [if_pos hlate] at h
      exact ih h
    rw [if_neg hlate] at h
    by_cases hheld : nowUs - f'.firstSeenUs < kNackHoldUs
    · rw [if_pos hheld] at h
      cases h
    rw [if_neg hheld] at h
    by_cases hasked : f'.lastNackUs ≠ 0 ∧
        nowUs - f'.lastNackUs < (if rttUs > kNackMinIntervalUs then rttUs else kNackMinIntervalUs)
    · rw [if_pos hasked] at h
      cases h
    rw [if_neg hasked] at h
    by_cases hnone : missingBelow f' (s.scanLimit nowUs f').toNat room = []
    · rw [if_pos hnone] at h
      cases h
    rw [if_neg hnone] at h
    cases h
    have hlimit : s.scanLimit nowUs f = f.pktCount ∨ s.scanLimit nowUs f = f.maxIndexSeen := by
      unfold scanLimit
      split
      · exact Or.inl rfl
      · exact Or.inr rfl
    refine ⟨by simpa using hcomplete, UInt64.not_le.mp hlate, UInt64.not_lt.mp hheld, ?_,
      _, hlimit, rfl, by simpa using hnone⟩
    by_cases hnever : f.lastNackUs = 0
    · exact Or.inl hnever
    · -- the longer of the two intervals has passed
      have hlong := UInt64.not_lt.mp fun hlt => hasked ⟨hnever, hlt⟩
      refine Or.inr ?_
      rw [max_def]
      split at hlong
      · next hrtt => rwa [if_neg (UInt64.not_le.mpr hrtt)]
      · next hrtt =>
        split
        · exact hlong
        · next hgt => exact absurd (UInt64.not_le.mp hgt) hrtt

/-- What is missing below a limit is asked for in order. -/
theorem missingBelow_spec (f : Pending) (limit room : Nat) :
    (missingBelow f limit room).Pairwise (· < ·) ∧ (missingBelow f limit room).length ≤ room ∧
      ∀ i ∈ missingBelow f limit room, i < limit ∧ f.pieceAt i = [] := by
  unfold missingBelow
  refine ⟨?_, List.length_take_le _ _, ?_⟩
  · exact (List.pairwise_lt_range.filter _).take
  · intro i hi
    have hmem := List.mem_filter.mp (List.mem_of_mem_take hi)
    exact ⟨List.mem_range.mp hmem.1, by simpa using hmem.2⟩

/-- A plan asks, in increasing order, for pieces the frame lacks. -/
structure AsksMissing (f : Pending) (room : Nat) (indices : List UInt16) : Prop where
  incomplete : f.complete = false
  some : indices ≠ []
  increasing : indices.Pairwise (· < ·)
  lacking : ∀ i ∈ indices, i < f.pktCount ∧ f.pieceAt i.toNat = []
  room : indices.length ≤ room

theorem Found.asksMissing {nowUs rttUs : UInt64} {room : Nat} {f : Pending} {indices : List UInt16}
    (h : s.Found nowUs rttUs room f indices) (hseen : f.maxIndexSeen ≤ f.pktCount) :
    AsksMissing f room indices := by
  rcases h.indices with ⟨limit, hlimit, hindices, hsome⟩
  rcases missingBelow_spec f limit.toNat room with ⟨hincreasing, hlength, hmissing⟩
  have hcount : limit ≤ f.pktCount := by
    rcases hlimit with rfl | rfl
    · exact UInt16.le_refl _
    · exact hseen
  -- an index fits its 16 bits
  have hfits : ∀ i ∈ missingBelow f limit.toNat room, (UInt16.ofNat i).toNat = i := by
    intro i hi
    have hlt := (hmissing i hi).1
    have hsize := limit.toNat_lt
    rw [UInt16.toNat_ofNat']
    exact Nat.mod_eq_of_lt (by omega)
  refine ⟨h.incomplete, hsome, ?_, ?_, ?_⟩
  · rw [hindices, List.pairwise_map]
    refine hincreasing.imp_of_mem ?_
    intro i j hi hj hlt
    rw [UInt16.lt_iff_toNat_lt, hfits i hi, hfits j hj]
    exact hlt
  · intro index hindex
    rw [hindices] at hindex
    rcases List.mem_map.mp hindex with ⟨i, hi, rfl⟩
    rw [UInt16.lt_iff_toNat_lt, hfits i hi]
    exact ⟨Nat.lt_of_lt_of_le (hmissing i hi).1 (UInt16.le_iff_toNat_le.mp hcount), (hmissing i hi).2⟩
  · rw [hindices, List.length_map]
    exact hlength

/-! ## A frame while it is pending -/

/-- `f'` is `f` after a call at time `time`: it may have been asked for then. -/
structure GoesOn (f f' : Pending) (time : Option UInt64) : Prop where
  firstSeenUs : f'.firstSeenUs = f.firstSeenUs
  lastNackUs : f'.lastNackUs = f.lastNackUs ∨ time = some f'.lastNackUs
  seen : f.maxIndexSeen ≤ f.pktCount → f'.maxIndexSeen ≤ f'.pktCount

/-- `f` begins with a packet of frame `id`. -/
structure Begins (s : Reassembler) (op : ReassemblerOp) (id : UInt32) (f : Pending) : Prop where
  new : s.pending.find? id = none
  packet : op.frameId? = some id
  time : op.nowUs? = some f.firstSeenUs
  seen : f.maxIndexSeen ≤ f.pktCount

theorem GoesOn.refl (f : Pending) (time : Option UInt64) : GoesOn f f time :=
  ⟨rfl, Or.inl rfl, fun h => h⟩

/-- A frame that is pending after a call was pending before or begins with it. -/
def FrameStep (s : Reassembler) (op : ReassemblerOp) (id : UInt32) (f' : Pending) : Prop :=
  (∃ f, s.pending.find? id = some f ∧ GoesOn f f' op.nowUs?) ∨ s.Begins op id f'

/-- A frame that was pending before. -/
theorem frameStep_of_mem {op : ReassemblerOp} {id : UInt32} {f : Pending}
    (h : (id, f) ∈ s.pending.entries) : s.FrameStep op id f :=
  Or.inl ⟨f, Map.find?_eq_some.mpr h, .refl f _⟩

theorem TakesIn.frameStep {id id' : UInt32} {pktCount : UInt16} {timestampUs nowUs : UInt64}
    {upd : Pending → Pending} (hgrown : ∀ f : Pending, f.Grown (upd f)) {op : ReassemblerOp}
    (hop : op.frameId? = some id ∧ op.nowUs? = some nowUs) {r : Reassembler × List ReassemblerEvent}
    (h : TakesIn s id pktCount timestampUs nowUs upd r) {f' : Pending}
    (hfind : r.1.pending.find? id' = some f') : s.FrameStep op id' f' := by
  cases h with
  | ignored hpending hbarrier =>
    dsimp only at hfind
    rw [hpending] at hfind
    exact frameStep_of_mem (Map.find?_eq_some.mp hfind)
  | @changed s' f hfree hfound hcount hpending hbarrier =>
    dsimp only at hfind
    rw [hpending, Map.find?_insert] at hfind
    split at hfind
    · next hsame =>
      cases hfind
      have hnoted : f.Grown { f with lastPushUs := nowUs } := ⟨rfl, rfl, fun hseen => hseen⟩
      have hupdated := hnoted.trans (hgrown _)
      exact Or.inl ⟨f, hsame ▸ hfound, hupdated.firstSeenUs, Or.inl hupdated.lastNackUs, hupdated.seen⟩
    · exact frameStep_of_mem (Map.find?_eq_some.mp hfind)
  | @added s₀ s₁ s' evs hfree hnone hsame hsame' hevict hpending hbarrier =>
    dsimp only at hfind
    rw [hpending, Map.find?_insert] at hfind
    split at hfind
    · next heq =>
      cases hfind
      have hnoted : (fresh pktCount timestampUs nowUs).Grown
          { fresh pktCount timestampUs nowUs with lastPushUs := nowUs } := ⟨rfl, rfl, fun hseen => hseen⟩
      have hupdated := hnoted.trans (hgrown _)
      refine Or.inr ⟨heq ▸ hnone, heq ▸ hop.1, ?_, hupdated.seen UInt16.zero_le⟩
      rw [hupdated.firstSeenUs]
      exact hop.2
    · have hmem := hevict.mem_pending (Map.find?_eq_some.mp hfind)
      rw [hsame] at hmem
      exact frameStep_of_mem hmem

theorem step_frame {op : ReassemblerOp} {id : UInt32} {f' : Pending}
    (h : (reassembler.step s op).1.pending.find? id = some f') : s.FrameStep op id f' := by
  cases op with
  | push pkt nowUs => exact (push_takesIn s pkt nowUs).frameStep (fun f => f.grown_accept pkt) ⟨rfl, rfl⟩ h
  | pushFec pkt nowUs =>
    exact (pushFec_takesIn s pkt nowUs).frameStep (fun f => f.grown_acceptFec pkt) ⟨rfl, rfl⟩ h
  | popReady nowUs =>
    have hpops := popReady_pops s nowUs
    change (s.popReady nowUs).1.pending.find? id = some f' at h
    generalize s.popReady nowUs = r at hpops h
    cases hpops with
    | waits hdrops hnext => exact frameStep_of_mem (hdrops.mem_pending (Map.find?_eq_some.mp h))
    | delivers hdrops hfirst hcomplete hnext =>
      have hmem := Map.mem_erase.mp (Map.find?_eq_some.mp h)
      exact frameStep_of_mem (hdrops.mem_pending hmem.2)
  | planNack nowUs rttUs room =>
    change (s.planNack nowUs rttUs room).1.pending.find? id = some f' at h
    rcases planNack_cases s nowUs rttUs room with hsame | ⟨id', f, hmem, hasked⟩
    · rw [hsame] at h
      exact frameStep_of_mem (Map.find?_eq_some.mp h)
    · rw [hasked] at h
      change (s.pending.insert id' { f with lastNackUs := nowUs }).find? id = some f' at h
      rw [Map.find?_insert] at h
      split at h
      · next hid =>
        cases h
        exact Or.inl ⟨f, hid ▸ Map.find?_eq_some.mpr hmem, rfl, Or.inr rfl, fun hseen => hseen⟩
      · exact frameStep_of_mem (Map.find?_eq_some.mp h)
  | setFps fps =>
    have hsame : (s.setFps fps).pending = s.pending := by
      unfold setFps
      split
      · rfl
      · rfl
    change (s.setFps fps).pending.find? id = some f' at h
    rw [hsame] at h
    exact frameStep_of_mem (Map.find?_eq_some.mp h)
  | setRttUs rttUs => exact frameStep_of_mem (Map.find?_eq_some.mp h)

/-! ## Runs -/

/-- The reassembler that calls lead to. -/
def reached (frameIntervalUs : UInt64) (ops : List ReassemblerOp) : Reassembler :=
  (reassembler.run (create frameIntervalUs) ops).1

/-- The frame is pending, and stays so after each of the calls. -/
def PendingThroughout (s : Reassembler) (id : UInt32) (ops : List ReassemblerOp) : Prop :=
  ∀ k, k ≤ ops.length → (reassembler.run s (ops.take k)).1.pending.find? id ≠ none

theorem PendingThroughout.init {id : UInt32} {ops : List ReassemblerOp} {op : ReassemblerOp}
    (h : s.PendingThroughout id (ops ++ [op])) : s.PendingThroughout id ops := by
  intro k hk
  have htaken := h k (by rw [List.length_append]; omega)
  rwa [List.take_append_of_le_length hk] at htaken

theorem PendingThroughout.concat {id : UInt32} {ops : List ReassemblerOp} {op : ReassemblerOp}
    (h : s.PendingThroughout id ops)
    (hlast : (reassembler.run s (ops ++ [op])).1.pending.find? id ≠ none) :
    s.PendingThroughout id (ops ++ [op]) := by
  intro k hk
  rw [List.length_append, List.length_singleton] at hk
  rcases Nat.lt_or_eq_of_le hk with hlt | heq
  · rw [List.take_append_of_le_length (Nat.le_of_lt_succ hlt)]
    exact h k (Nat.le_of_lt_succ hlt)
  · rw [List.take_of_length_le (by rw [List.length_append, List.length_singleton]; omega)]
    exact hlast

/-- A frame that stays pending is the one it was, asked for last when it was then or by one of the
calls. -/
theorem run_goesOn {id : UInt32} {f : Pending} (hfind : s.pending.find? id = some f)
    {ops : List ReassemblerOp} (h : s.PendingThroughout id ops) {f' : Pending}
    (hfind' : (reassembler.run s ops).1.pending.find? id = some f') :
    f'.lastNackUs = f.lastNackUs ∨ ∃ op ∈ ops, op.nowUs? = some f'.lastNackUs := by
  induction ops using List.reverseRecOn generalizing f' with
  | nil =>
    rw [Machine.run_nil, hfind] at hfind'
    cases hfind'
    exact Or.inl rfl
  | append_singleton ops op ih =>
    rw [Machine.run_concat] at hfind'
    rcases step_frame hfind' with ⟨g, hg, hgoes⟩ | hbegins
    · rcases hgoes.lastNackUs with hkept | hasked
      · rw [hkept]
        rcases ih h.init hg with hsame | ⟨op', hmem, htime⟩
        · exact Or.inl hsame
        · exact Or.inr ⟨op', List.mem_append_left _ hmem, htime⟩
      · exact Or.inr ⟨op, by simp, hasked⟩
    · -- it would have been given up in between
      have hpending := h.init ops.length (Nat.le_refl _)
      rw [List.take_length] at hpending
      exact absurd hbegins.new hpending

/-- Where a pending frame began: with a packet of it, at the time it was first seen, when it was not
pending; and it has been pending since. -/
structure BeginsAt (frameIntervalUs : UInt64) (ops : List ReassemblerOp) (id : UInt32) (t₀ : UInt64)
    (before : List ReassemblerOp) (op : ReassemblerOp) (after : List ReassemblerOp) : Prop where
  split : ops = before ++ op :: after
  packet : op.frameId? = some id
  time : op.nowUs? = some t₀
  new : (reached frameIntervalUs before).pending.find? id = none
  since : (reached frameIntervalUs (before ++ [op])).PendingThroughout id after

theorem reached_concat (frameIntervalUs : UInt64) (ops : List ReassemblerOp) (op : ReassemblerOp) :
    reached frameIntervalUs (ops ++ [op]) = (reassembler.step (reached frameIntervalUs ops) op).1 := by
  unfold reached
  rw [Machine.run_concat]

theorem run_reached (frameIntervalUs : UInt64) (ops more : List ReassemblerOp) :
    (reassembler.run (reached frameIntervalUs ops) more).1 = reached frameIntervalUs (ops ++ more) := by
  unfold reached
  rw [Machine.run_append]

theorem reached_begins (frameIntervalUs : UInt64) {ops : List ReassemblerOp} {id : UInt32} {f : Pending}
    (h : (reached frameIntervalUs ops).pending.find? id = some f) :
    (∃ before op after, BeginsAt frameIntervalUs ops id f.firstSeenUs before op after) ∧
      f.maxIndexSeen ≤ f.pktCount := by
  induction ops using List.reverseRecOn generalizing f with
  | nil => cases h
  | append_singleton ops op ih =>
    have hstep := h
    rw [reached_concat] at hstep
    rcases step_frame hstep with ⟨g, hg, hgoes⟩ | hbegins
    · rcases ih hg with ⟨⟨before, op', after, hbegins⟩, hseen⟩
      refine ⟨⟨before, op', after ++ [op], ?_, hbegins.packet, ?_, hbegins.new, ?_⟩, hgoes.seen hseen⟩
      · rw [hbegins.split, List.append_assoc]
        rfl
      · rw [hgoes.firstSeenUs]
        exact hbegins.time
      · refine hbegins.since.concat ?_
        have hall : before ++ [op'] ++ (after ++ [op]) = ops ++ [op] := by
          rw [hbegins.split, List.append_assoc, List.append_assoc]
          rfl
        rw [run_reached, hall, h]
        exact nofun
    · refine ⟨⟨ops, op, [], rfl, hbegins.packet, hbegins.time, hbegins.new, ?_⟩, hbegins.seen⟩
      intro k hk
      rw [Nat.le_zero.mp hk]
      rw [show (reassembler.run (reached frameIntervalUs (ops ++ [op])) (List.take 0 [])).1 =
        reached frameIntervalUs (ops ++ [op]) from rfl, h]
      exact nofun

/-- A difference of times that is not cut off. -/
theorem add_le_of_le_sub {t t' d : UInt64} (h : t ≤ t') (hd : d ≤ t' - t) : t.toNat + d.toNat ≤ t'.toNat := by
  have hle := UInt64.le_iff_toNat_le.mp h
  have hsub := UInt64.le_iff_toNat_le.mp hd
  rw [UInt64.toNat_sub_of_le _ _ h] at hsub
  omega

theorem lt_add_of_sub_lt {t t' d : UInt64} (h : t ≤ t') (hd : t' - t < d) : t'.toNat < t.toNat + d.toNat := by
  have hle := UInt64.le_iff_toNat_le.mp h
  have hsub := UInt64.lt_iff_toNat_lt.mp hd
  rw [UInt64.toNat_sub_of_le _ _ h] at hsub
  omega

/-- What a plan that is not empty was made for. -/
theorem planNack_found {nowUs rttUs : UInt64} {room : Nat} {id : UInt32} {indices : List UInt16}
    (h : (s.planNack nowUs rttUs room).2 = some (id, indices)) :
    ∃ f, s.pending.find? id = some f ∧ s.Found nowUs rttUs room f indices ∧
      (s.planNack nowUs rttUs room).1.pending.find? id = some { f with lastNackUs := nowUs } := by
  unfold planNack at *
  split at h
  · cases h
  · next hroom =>
    rw [if_neg hroom]
    cases hscan : s.planScan nowUs rttUs room s.pending.entries with
    | none =>
      rw [hscan] at h
      cases h
    | some found =>
      rcases found with ⟨id', f, indices'⟩
      rw [hscan] at h
      cases h
      refine ⟨f, Map.find?_eq_some.mpr (planScan_mem hscan), planScan_found hscan, ?_⟩
      exact Map.find?_insert_self _ _ _

/-- How far a plan for frame `id` at that time, after those calls, is from the frame's first packet and
from every plan for it that was made while it was pending. -/
structure WellTimed (frameIntervalUs : UInt64) (ops : List ReassemblerOp) (id : UInt32)
    (nowUs rttUs : UInt64) : Prop where
  first : ∃ t₀, (∃ before op after, BeginsAt frameIntervalUs ops id t₀ before op after) ∧
    t₀.toNat + kNackHoldUs.toNat ≤ nowUs.toNat ∧
    nowUs.toNat < t₀.toNat + (reached frameIntervalUs ops).hardTimeoutUs.toNat
  apart : ∀ before t₁ rtt₁ room₁ indices₁ after, ops = before ++ .planNack t₁ rtt₁ room₁ :: after →
    ((reached frameIntervalUs before).planNack t₁ rtt₁ room₁).2 = some (id, indices₁) →
    (reached frameIntervalUs (before ++ [.planNack t₁ rtt₁ room₁])).PendingThroughout id after →
    t₁.toNat + max rttUs.toNat kNackMinIntervalUs.toNat ≤ nowUs.toNat

/-- A plan is for a frame that has been pending since a packet of it came. -/
theorem plan_after_first {frameIntervalUs : UInt64} {before after : List ReassemblerOp} {t rtt : UInt64}
    {room : Nat} (htimes : NondecreasingTimes (before ++ .planNack t rtt room :: after)) {id : UInt32}
    {f : Pending} (hfind : (reached frameIntervalUs before).pending.find? id = some f) :
    (∃ before' op after', BeginsAt frameIntervalUs before id f.firstSeenUs before' op after') ∧
      f.firstSeenUs ≤ t := by
  have hbegins := (reached_begins frameIntervalUs hfind).1
  refine ⟨hbegins, ?_⟩
  rcases hbegins with ⟨before', op, after', hat⟩
  rw [hat.split, List.append_assoc] at htimes
  exact htimes.le (List.mem_append_right after' List.mem_cons_self) hat.time rfl

/-- A plan asks for what its frame lacks; it is made once the first packet has been held long enough and
before the hard timeout, and at least the longer of the round trip and the interval after any
other plan for the same frame. -/
theorem planNack_asks {frameIntervalUs : UInt64} {ops : List ReassemblerOp} {nowUs rttUs : UInt64}
    {room : Nat} (htimes : NondecreasingTimes (ops ++ [.planNack nowUs rttUs room])) {id : UInt32}
    {indices : List UInt16}
    (hplan : ((reached frameIntervalUs ops).planNack nowUs rttUs room).2 = some (id, indices)) :
    (∃ f, (reached frameIntervalUs ops).pending.find? id = some f ∧ AsksMissing f room indices) ∧
      WellTimed frameIntervalUs ops id nowUs rttUs := by
  rcases planNack_found hplan with ⟨f, hfind, hfound, -⟩
  have hseen := (reached_begins frameIntervalUs hfind).2
  rcases plan_after_first htimes hfind with ⟨hbegins, hfirst⟩
  refine ⟨⟨f, hfind, hfound.asksMissing hseen⟩, ⟨f.firstSeenUs, hbegins, ?_, ?_⟩, ?_⟩
  · exact add_le_of_le_sub hfirst hfound.held
  · exact lt_add_of_sub_lt hfirst hfound.early
  · intro before t₁ rtt₁ room₁ indices₁ after hsplit hplan₁ hpending
    -- after the first of the two plans the frame keeps its time
    rcases planNack_found hplan₁ with ⟨f₁, hfind₁, hfound₁, hasked⟩
    rw [hsplit, List.append_assoc] at htimes
    have hfirst₁ := (plan_after_first htimes hfind₁).2
    have hlate : t₁.toNat ≠ 0 := by
      have hheld := add_le_of_le_sub hfirst₁ hfound₁.held
      have hpositive : 0 < kNackHoldUs.toNat := by decide
      omega
    have hnext : (reached frameIntervalUs (before ++ [.planNack t₁ rtt₁ room₁])).pending.find? id =
        some { f₁ with lastNackUs := t₁ } := by
      rw [reached_concat]
      exact hasked
    have hend : (reassembler.run (reached frameIntervalUs (before ++ [.planNack t₁ rtt₁ room₁]))
        after).1.pending.find? id = some f := by
      rw [run_reached, List.append_assoc]
      rw [hsplit] at hfind
      exact hfind
    -- what it was asked for last is no earlier than the first plan, and no later than the second
    have hlast : t₁ ≤ f.lastNackUs ∧ f.lastNackUs ≤ nowUs := by
      rcases run_goesOn hnext hpending hend with hsame | ⟨op, hmem, htime⟩
      · rw [hsame]
        exact ⟨UInt64.le_refl _, htimes.le (b := .planNack nowUs rttUs room) (by simp) rfl rfl⟩
      · refine ⟨htimes.le (by simp [hmem]) rfl htime, ?_⟩
        rcases List.append_of_mem hmem with ⟨xs, ys, rfl⟩
        have hbehind : NondecreasingTimes ((before ++ .planNack t₁ rtt₁ room₁ :: xs) ++ op ::
            (ys ++ [.planNack nowUs rttUs room])) := by
          simpa using htimes
        exact hbehind.le (b := .planNack nowUs rttUs room) (by simp) htime rfl
    have hsince := UInt64.le_iff_toNat_le.mp hlast.1
    rcases hfound.apart with hnever | hapart
    · rw [hnever] at hsince
      exact absurd (Nat.le_zero.mp hsince) hlate
    · have hspaced := add_le_of_le_sub hlast.2 hapart
      have hmax : (max rttUs kNackMinIntervalUs).toNat = max rttUs.toNat kNackMinIntervalUs.toNat := by
        rw [max_def, max_def]
        simp only [UInt64.le_iff_toNat_le]
        split
        · rfl
        · rfl
      omega

/-- Two packets of three, and the piece between them asked for. -/
def askedOnce : List ReassemblerOp :=
  [.push ⟨⟨5, 0, 0, 3⟩, true, false, [1]⟩ 1000, .push ⟨⟨5, 0, 2, 3⟩, true, true, [3]⟩ 1000,
    .planNack 4000 100 8]

/-- It is asked for again 30 ms later. -/
theorem planNack_asks_again :
    (∃ f, (reached 0 askedOnce).pending.find? 5 = some f ∧ AsksMissing f 8 [1]) ∧
      WellTimed 0 askedOnce 5 34000 100 := by
  have htimes : NondecreasingTimes (askedOnce ++ [.planNack 34000 100 8]) := by
    unfold NondecreasingTimes askedOnce
    simp [ReassemblerOp.nowUs?]
  exact planNack_asks htimes (by decide +kernel)

end Reassembler

end Deskhub
