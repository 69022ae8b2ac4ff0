import Deskhub.Control.QualityLadder

/-!
# Quality climbs with headroom only

What the two times of a ladder stand for: the call that moved it last, and the first of an unbroken
stretch of calls with headroom. A climb needs both to be long enough ago.
-/

namespace Deskhub

/-- The call moved the ladder. -/
def LadderEvent.Moves (e : LadderEvent) : Prop := e.rungBefore ≠ e.rungAfter

namespace QualityLadder

/-- The call that moved the ladder last. -/
def LastMove (past : List LadderEvent) (last : LadderEvent) : Prop :=
  ∃ earlier quiet, past = earlier ++ last :: quiet ∧ last.Moves ∧ ∀ q ∈ quiet, ¬ q.Moves

/-- From `s` to `s'` one rung was climbed, long enough after the last move, and at the end of a long
enough stretch of calls whose bitrates were all enough for the rung climbed to. -/
def SustainedClimb (enough : Nat → Nat → Prop) (s s' : QualityLadder) (past : List LadderEvent)
    (e : LadderEvent) : Prop :=
  s'.rung + 1 = s.rung ∧
    (∃ last, LastMove past last ∧
      last.nowUs.toNat + (dwell s.step s'.step).toNat ≤ e.nowUs.toNat) ∧
    ∃ earlier first rest, past ++ [e] = earlier ++ first :: rest ∧
      first.nowUs.toNat + (dwell s.step s'.step).toNat ≤ e.nowUs.toNat ∧
      ∀ q ∈ first :: rest, enough (s.max.requiredBps s'.rung).toNat q.bitrateBps.toNat

/-- The bitrate is the share of the requirement, in whole bits per second. -/
def HasHeadroom (required bitrate : Nat) : Prop := required * kUpHeadroomPct.toNat / 100 ≤ bitrate

/-! ## What the times stand for -/

/-- The past of a ladder: which call moved it last, and since when there was headroom. -/
structure Remembers (s : QualityLadder) (past : List LadderEvent) : Prop where
  moved : 0 < s.rung → ∃ last, LastMove past last ∧ last.nowUs = s.lastChangeUs
  since : s.upSinceUs ≠ 0 → ∃ earlier first rest, past = earlier ++ first :: rest ∧
    first.nowUs = s.upSinceUs ∧
    ∀ q ∈ first :: rest, need s.max (s.rung - 1) ≤ q.bitrateBps.toUInt64

theorem LastMove.stays {past : List LadderEvent} {last e : LadderEvent} (h : LastMove past last)
    (he : ¬ e.Moves) : LastMove (past ++ [e]) last := by
  rcases h with ⟨earlier, quiet, rfl, hmoves, hquiet⟩
  refine ⟨earlier, quiet ++ [e], by simp, hmoves, ?_⟩
  intro q hq
  rcases List.mem_append.mp hq with hold | hnew
  · exact hquiet q hold
  · rw [List.mem_singleton.mp hnew]
    exact he

theorem LastMove.now {past : List LadderEvent} {e : LadderEvent} (he : e.Moves) :
    LastMove (past ++ [e]) e := by
  refine ⟨past, [], rfl, he, ?_⟩
  intro q hq
  exact absurd hq List.not_mem_nil

theorem Remembers.step {s : QualityLadder} {past : List LadderEvent} (h : Remembers s past)
    (c : LadderCall) :
    Remembers (qualityLadder.step s c).1 (past ++ (qualityLadder.step s c).2) := by
  show Remembers (s.update c.bitrateBps c.nowUs).1
    (past ++ [⟨c, s.rung, (s.update c.bitrateBps c.nowUs).1.rung,
      (s.update c.bitrateBps c.nowUs).2⟩])
  have hcall := update_as s c.bitrateBps c.nowUs
  generalize s.update c.bitrateBps c.nowUs = r at hcall ⊢
  -- a call that leaves the rung where it is does not move
  have hmoved : r.1.rung = s.rung → r.1.lastChangeUs = s.lastChangeUs → 0 < r.1.rung →
      ∃ last, LastMove (past ++ [⟨c, s.rung, r.1.rung, r.2⟩]) last ∧
        last.nowUs = r.1.lastChangeUs := by
    intro hrung hchange hpos
    rcases h.moved (hrung ▸ hpos) with ⟨last, hlast, htime⟩
    exact ⟨last, hlast.stays (fun hmoves => hmoves hrung.symm), htime.trans hchange.symm⟩
  cases hcall with
  | drops want hwant hdown =>
    constructor
    · intro _
      exact ⟨_, .now (Nat.ne_of_lt hdown), rfl⟩
    · intro hsince
      exact absurd rfl hsince
  | rests =>
    constructor
    · exact hmoved rfl rfl
    · intro hsince
      exact absurd rfl hsince
  | starts hwant hpos hneed =>
    constructor
    · exact hmoved rfl rfl
    · intro _
      refine ⟨past, _, [], rfl, rfl, ?_⟩
      intro q hq
      rw [List.mem_singleton.mp hq]
      exact hneed
  | waits hwant hpos hneed =>
    constructor
    · exact hmoved rfl rfl
    · intro hsince
      rcases h.since hsince with ⟨earlier, first, rest, rfl, htime, henough⟩
      refine ⟨earlier, first, rest ++ [⟨c, s.rung, s.rung, false⟩], ?_, htime, ?_⟩
      · rw [List.append_assoc]
        rfl
      intro q hq
      rcases List.mem_append.mp (List.cons_append ▸ hq) with hold | hnew
      · exact henough q hold
      · rw [List.mem_singleton.mp hnew]
        exact hneed
  | climbs next hnext =>
    constructor
    · intro _
      have hne : s.rung ≠ next := by omega
      exact ⟨_, .now hne, rfl⟩
    · intro hsince
      exact absurd rfl hsince

theorem remembers_run {s : QualityLadder} (h : Remembers s []) (calls : List LadderCall) :
    Remembers (qualityLadder.run s calls).1 (qualityLadder.run s calls).2 :=
  Machine.run_invariant' (fun (s : QualityLadder) past => Remembers s past) h
    (fun _ _ c hs => hs.step c) calls

/-- The calls of a run are those of its events. -/
theorem calls_run (s : QualityLadder) (calls : List LadderCall) :
    (qualityLadder.run s calls).2.map LadderEvent.toLadderCall = calls := by
  induction calls generalizing s with
  | nil => rfl
  | cons c calls ih =>
    rw [Machine.run_cons, List.map_append, ih]
    rfl

/-- A time at least the dwell ago, in numbers. -/
theorem ago {then' now d : UInt64} (hle : then' ≤ now) (h : d ≤ now - then') :
    then'.toNat + d.toNat ≤ now.toNat := by
  have hnat := UInt64.le_iff_toNat_le.mp h
  have hle' := UInt64.le_iff_toNat_le.mp hle
  rw [UInt64.toNat_sub_of_le _ _ hle] at hnat
  omega

/-- A call that lowers the rung climbs one rung with sustained headroom. -/
theorem qualityLadder_climbs (maxW maxH : UInt16) (maxFps : UInt8) (calls : List LadderCall)
    (c : LadderCall) (hmono : (calls ++ [c]).Pairwise (·.nowUs ≤ ·.nowUs)) :
    let s := (qualityLadder.run (make maxW maxH maxFps) calls).1
    let past := (qualityLadder.run (make maxW maxH maxFps) calls).2
    let r := s.update c.bitrateBps c.nowUs
    r.1.rung < s.rung → SustainedClimb HasHeadroom s r.1 past ⟨c, s.rung, r.1.rung, r.2⟩ := by
  intro s past r hclimb
  have hfresh : Remembers (make maxW maxH maxFps) [] :=
    ⟨fun hpos => absurd hpos (Nat.lt_irrefl 0), fun hsince => absurd rfl hsince⟩
  have hpast : Remembers s past := remembers_run hfresh calls
  -- no call of the past is later than this one
  have hbefore : ∀ q ∈ past, q.nowUs ≤ c.nowUs := by
    intro q hq
    have hcall : q.toLadderCall ∈ calls := by
      rw [← calls_run (make maxW maxH maxFps) calls]
      exact List.mem_map_of_mem hq
    exact (List.pairwise_append.mp hmono).2.2 _ hcall c (List.mem_singleton_self c)
  have hcall : UpdateAs s c.bitrateBps c.nowUs r := update_as s c.bitrateBps c.nowUs
  generalize r = after at hcall hclimb ⊢
  cases hcall with
  | drops want hwant hdown => exact absurd hclimb (Nat.lt_asymm hdown)
  | rests => exact absurd hclimb (Nat.lt_irrefl _)
  | starts => exact absurd hclimb (Nat.lt_irrefl _)
  | waits => exact absurd hclimb (Nat.lt_irrefl _)
  | climbs next hnext hwant hneed hsince hup hlast =>
    have hpos : 0 < s.rung := by omega
    have hback : s.rung - 1 = next := by omega
    refine ⟨hnext.symm, ?_, ?_⟩
    · rcases hpast.moved hpos with ⟨last, hmoved, htime⟩
      have hmem : last ∈ past := by
        rcases hmoved with ⟨earlier, quiet, hsplit, -⟩
        rw [hsplit]
        exact List.mem_append_right _ List.mem_cons_self
      refine ⟨last, hmoved, ago (hbefore last hmem) ?_⟩
      rw [htime]
      exact hlast
    · rcases hpast.since hsince with ⟨earlier, first, rest, hsplit, htime, henough⟩
      have hmem : first ∈ past := by
        rw [hsplit]
        exact List.mem_append_right _ List.mem_cons_self
      refine ⟨earlier, first, rest ++ [⟨c, s.rung, next, true⟩], ?_, ago (hbefore first hmem) ?_, ?_⟩
      · rw [hsplit, List.append_assoc]
        rfl
      · rw [htime]
        exact hup
      · intro q hq
        have hall : need s.max next ≤ q.bitrateBps.toUInt64 := by
          rcases List.mem_append.mp (List.cons_append ▸ hq) with hold | hnew
          · exact hback ▸ henough q hold
          · rw [List.mem_singleton.mp hnew]
            exact hneed
        have hnat := UInt64.le_iff_toNat_le.mp hall
        rw [toNat_need, UInt32.toNat_toUInt64] at hnat
        exact hnat

/-- A drop, and two calls with just enough headroom five seconds apart. -/
theorem qualityLadder_climbs_once :
    let s := (qualityLadder.run (make 1366 768 60) [⟨3000000, 1⟩, ⟨6042746, 2⟩]).1
    let past := (qualityLadder.run (make 1366 768 60) [⟨3000000, 1⟩, ⟨6042746, 2⟩]).2
    let r := s.update 6042746 5000002
    SustainedClimb HasHeadroom s r.1 past ⟨⟨6042746, 5000002⟩, s.rung, r.1.rung, r.2⟩ :=
  qualityLadder_climbs 1366 768 60 [⟨3000000, 1⟩, ⟨6042746, 2⟩] ⟨6042746, 5000002⟩
    (by decide +kernel) (by decide +kernel)

/-- The share is rounded down: there a bitrate is climbed with that is not quite 120 percent. -/
theorem qualityLadder_climbs_rounded :
    ¬ ∀ (maxW maxH : UInt16) (maxFps : UInt8) (calls : List LadderCall) (c : LadderCall),
      (∀ q ∈ calls ++ [c], 0 < q.nowUs) →
      (calls ++ [c]).Pairwise (·.nowUs ≤ ·.nowUs) →
      let s := (qualityLadder.run (make maxW maxH maxFps) calls).1
      let past := (qualityLadder.run (make maxW maxH maxFps) calls).2
      let r := s.update c.bitrateBps c.nowUs
      r.1.rung < s.rung →
        SustainedClimb (fun required bitrate => required * kUpHeadroomPct.toNat ≤ bitrate * 100) s
          r.1 past ⟨c, s.rung, r.1.rung, r.2⟩ := by
  intro h
  rcases h 1366 768 60 [⟨3000000, 1⟩, ⟨6042746, 2⟩] ⟨6042746, 5000002⟩ (by decide +kernel)
    (by decide +kernel) (by decide +kernel) with ⟨-, -, earlier, first, rest, hsplit, -, henough⟩
  have hlast := congrArg List.getLast? hsplit
  rw [List.getLast?_concat, List.getLast?_append_of_ne_nil _ (List.cons_ne_nil first rest)] at hlast
  have hshort := henough _ (List.mem_of_getLast? hlast.symm)
  revert hshort
  decide +kernel

end QualityLadder

end Deskhub
