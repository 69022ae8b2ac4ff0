import Deskhub.Lib.Machine
import Deskhub.Lib.RollingMinimum
import Mathlib.Algebra.Group.Int.Defs

/-!
# The clock offset

`ClockOffset`: the least difference between the local and the host clock over the last two windows
is the delay that the clocks themselves make up. Two cells with emptiness flags roll through the
windows, several at once after a gap.
-/

namespace Deskhub

/-- What `AddSample` is given. -/
structure ClockSample where
  hostPtsUs : UInt64
  localUs : UInt64
deriving DecidableEq, Repr

structure ClockOffset where
  haveSample : Bool := false
  curMin : Int64 := 0
  prevMin : Int64 := 0
  curEmpty : Bool := true
  havePrev : Bool := false
  floor : Int64 := 0
  lastRaw : Int64 := 0
  windowStartUs : UInt64 := 0
deriving DecidableEq, Repr

namespace ClockOffset

def kWindowUs : UInt64 := 10000000

/-- `Reset`: it leaves the emptiness of the current cell as it is. -/
def reset (s : ClockOffset) : ClockOffset :=
  { s with
    haveSample := false
    havePrev := false
    curMin := 0
    prevMin := 0
    floor := 0
    lastRaw := 0
    windowStartUs := 0 }

/-- One turn of the loop of `Rotate`. -/
def rotateOnce (s : ClockOffset) : ClockOffset :=
  { s with
    prevMin := s.curMin
    havePrev := !s.curEmpty
    windowStartUs := s.windowStartUs + kWindowUs
    curMin := 0
    curEmpty := true }

theorem rotateOnce_left {s : ClockOffset} {localUs : UInt64}
    (h : kWindowUs ≤ localUs - s.windowStartUs) :
    (localUs - s.rotateOnce.windowStartUs).toNat + kWindowUs.toNat =
      (localUs - s.windowStartUs).toNat := by
  have hle := UInt64.le_iff_toNat_le.mp h
  show (localUs - (s.windowStartUs + kWindowUs)).toNat + _ = _
  have hwindow : kWindowUs.toNat = 10000000 := rfl
  have hlocal := localUs.toNat_lt
  have hstart := s.windowStartUs.toNat_lt
  rw [UInt64.toNat_sub] at hle ⊢
  rw [UInt64.toNat_sub, UInt64.toNat_add]
  omega

/-- `Rotate`. -/
def rotate (s : ClockOffset) (localUs : UInt64) : ClockOffset :=
  if kWindowUs ≤ localUs - s.windowStartUs then s.rotateOnce.rotate localUs else s
termination_by (localUs - s.windowStartUs).toNat
decreasing_by
  have hleft := rotateOnce_left ‹_›
  have hwindow : kWindowUs.toNat = 10000000 := rfl
  omega

/-- The local time less the host's, as signed 64-bit values. -/
def raw (x : ClockSample) : Int64 := x.localUs.toInt64 - x.hostPtsUs.toInt64

/-- The current cell with a further value. -/
def fill (s : ClockOffset) (value : Int64) : ClockOffset :=
  if s.curEmpty then { s with curMin := value, curEmpty := false }
  else { s with curMin := min s.curMin value }

/-- The least value of the cells, the current one not being empty. -/
def least (s : ClockOffset) : Int64 :=
  if s.havePrev then min s.curMin s.prevMin else s.curMin

/-- `AddSample`. -/
def addSample (s : ClockOffset) (x : ClockSample) : ClockOffset :=
  let s := { s with lastRaw := raw x }
  if !s.haveSample then
    { s with
      haveSample := true
      windowStartUs := x.localUs
      curMin := raw x
      curEmpty := false
      havePrev := false
      floor := raw x }
  else
    let s := (s.rotate x.localUs).fill (raw x)
    { s with floor := s.least }

/-- `LatencyUs`. -/
def latencyUs (s : ClockOffset) (netFloorUs : UInt64) : Int64 :=
  if !s.haveSample then -1 else max 0 (s.lastRaw - s.floor) + netFloorUs.toInt64

end ClockOffset

/-- A clock offset fed with samples. -/
def clockOffset : Machine ClockOffset ClockSample Int64 where
  step s x := (s.addSample x, [(s.addSample x).floor])

namespace ClockOffset

/-! ## The cells -/

/-- The window of a sample, counted from the first one's local time. -/
def window (first : UInt64) (x : ClockSample) : Nat :=
  (x.localUs.toNat - first.toNat) / kWindowUs.toNat

/-- The cells, with the emptiness flags read. -/
def cells (s : ClockOffset) (number : Nat) : RollingMinimum Int64 where
  window := number
  current := if s.curEmpty then none else some s.curMin
  previous := if s.havePrev then some s.prevMin else none

theorem cells_rotateOnce (s : ClockOffset) (number : Nat) :
    s.rotateOnce.cells (number + 1) = (s.cells number).rotate := by
  unfold cells rotateOnce RollingMinimum.rotate
  cases s.curEmpty
  · rfl
  · rfl

theorem cells_fill (s : ClockOffset) (value : Int64) (number : Nat) :
    (s.fill value).cells number = (s.cells number).add value := by
  unfold fill
  by_cases hempty : s.curEmpty = true
  · rw [if_pos hempty]
    simp [cells, RollingMinimum.add, hempty]
  · rw [if_neg hempty]
    simp [cells, RollingMinimum.add, hempty]

theorem floor_cells_fill (s : ClockOffset) (value : Int64) (number : Nat) :
    ((s.fill value).cells number).floor = some (s.fill value).least := by
  have hfilled : (s.fill value).curEmpty = false := by
    unfold fill
    by_cases hempty : s.curEmpty = true
    · rw [if_pos hempty]
    · rw [if_neg hempty]
      simpa using hempty
  unfold least
  by_cases hprev : (s.fill value).havePrev = true
  · simp [cells, RollingMinimum.floor, hfilled, hprev]
  · simp [cells, RollingMinimum.floor, hfilled, hprev]

theorem haveSample_fill (s : ClockOffset) (value : Int64) :
    (s.fill value).haveSample = s.haveSample := by
  unfold fill
  split
  · rfl
  · rfl

theorem windowStartUs_fill (s : ClockOffset) (value : Int64) :
    (s.fill value).windowStartUs = s.windowStartUs := by
  unfold fill
  split
  · rfl
  · rfl

/-- The offset after samples the first of which was at `first`. -/
structure Tracks (first : UInt64) (s : ClockOffset) (past : List ClockSample) (number : Nat) :
    Prop where
  haveSample : s.haveSample = true
  windowStart : s.windowStartUs.toNat = first.toNat + number * kWindowUs.toNat
  follows : (s.cells number).Follows (window first) raw past

section Steps

variable {first : UInt64} {s : ClockOffset} {past : List ClockSample} {number : Nat}

theorem Tracks.rotateOnce (h : Tracks first s past number) {localUs : UInt64}
    (hstart : s.windowStartUs ≤ localUs) (hwait : kWindowUs ≤ localUs - s.windowStartUs) :
    Tracks first s.rotateOnce past (number + 1) ∧ s.rotateOnce.windowStartUs ≤ localUs := by
  have hstart' := UInt64.le_iff_toNat_le.mp hstart
  have hwait' := UInt64.le_iff_toNat_le.mp hwait
  rw [UInt64.toNat_sub_of_le _ _ hstart] at hwait'
  have hnext : s.rotateOnce.windowStartUs.toNat = s.windowStartUs.toNat + kWindowUs.toNat := by
    show (s.windowStartUs + kWindowUs).toNat = _
    rw [UInt64.toNat_add, Nat.mod_eq_of_lt]
    have hfits := localUs.toNat_lt
    omega
  constructor
  · constructor
    · exact h.haveSample
    · rw [hnext, h.windowStart, Nat.succ_mul]
      omega
    · rw [cells_rotateOnce]
      exact h.follows.rotate
  · rw [UInt64.le_iff_toNat_le, hnext]
    omega

/-- The loop ends in the window of the sample. -/
theorem Tracks.rotate (h : Tracks first s past number) {localUs : UInt64}
    (hstart : s.windowStartUs ≤ localUs) :
    Tracks first (s.rotate localUs) past ((localUs.toNat - first.toNat) / kWindowUs.toNat) := by
  induction s using rotate.induct localUs generalizing number with
  | case1 s hwait ih =>
    rw [ClockOffset.rotate, if_pos hwait]
    rcases h.rotateOnce hstart hwait with ⟨hnext, hstart'⟩
    exact ih hnext hstart'
  | case2 s hwait =>
    rw [ClockOffset.rotate, if_neg hwait]
    have hwait' := UInt64.lt_iff_toNat_lt.mp (UInt64.not_le.mp hwait)
    rw [UInt64.toNat_sub_of_le _ _ hstart] at hwait'
    have hstart' := UInt64.le_iff_toNat_le.mp hstart
    have hhere : (localUs.toNat - first.toNat) / kWindowUs.toNat = number := by
      rw [h.windowStart] at hwait' hstart'
      have hwindow : 0 < kWindowUs.toNat := by decide
      rw [Nat.div_eq_iff hwindow]
      rw [Nat.mul_comm] at *
      omega
    rw [hhere]
    exact h

/-- The samples in the window that is filled and the one before it. -/
def recent (first : UInt64) (number : Nat) (past : List ClockSample) : Set Int64 :=
  RollingMinimum.valuesIn (window first) raw (fun k => k = number ∨ k + 1 = number) past

/-- The step lemma. -/
theorem Tracks.addSample (h : Tracks first s past number) {x : ClockSample}
    (hstart : s.windowStartUs ≤ x.localUs) :
    Tracks first (s.addSample x) (past ++ [x]) (window first x) ∧
      IsLeast (recent first (window first x) (past ++ [x])) (s.addSample x).floor := by
  have hstamped : Tracks first { s with lastRaw := raw x } past number :=
    ⟨h.haveSample, h.windowStart, h.follows⟩
  have hrotated := hstamped.rotate hstart
  have hadd : s.addSample x =
      { (({ s with lastRaw := raw x } : ClockOffset).rotate x.localUs).fill (raw x) with
        floor := ((({ s with lastRaw := raw x } : ClockOffset).rotate x.localUs).fill
          (raw x)).least } := by
    unfold ClockOffset.addSample
    simp only [h.haveSample, Bool.not_true, Bool.false_eq_true, if_false]
  rw [hadd]
  generalize ({ s with lastRaw := raw x } : ClockOffset).rotate x.localUs = r at hrotated ⊢
  have hfilled : ((r.fill (raw x)).cells (window first x)).Follows (window first) raw
      (past ++ [x]) := by
    rw [cells_fill]
    exact hrotated.follows.add rfl
  refine ⟨⟨?_, ?_, hfilled⟩, ?_⟩
  · show (r.fill (raw x)).haveSample = true
    rw [haveSample_fill]
    exact hrotated.haveSample
  · show (r.fill (raw x)).windowStartUs.toNat = _
    rw [windowStartUs_fill]
    exact hrotated.windowStart
  · exact hfilled.floor.of_some (floor_cells_fill r (raw x) (window first x))

/-- The first sample opens the first window. -/
theorem tracks_first (s : ClockOffset) (x : ClockSample) :
    Tracks x.localUs (s.reset.addSample x) [x] (window x.localUs x) ∧
      IsLeast (recent x.localUs (window x.localUs x) [x]) (s.reset.addSample x).floor := by
  have hwindow : window x.localUs x = 0 := by
    unfold window
    rw [Nat.sub_self, Nat.zero_div]
  rw [hwindow]
  have hfollows : ((s.reset.addSample x).cells 0).Follows (window x.localUs) raw [x] := by
    have hnone : ({ window := 0, current := none, previous := none } :
        RollingMinimum Int64).Follows (window x.localUs) raw [] :=
      ⟨by simp, by simp [LeastOf, RollingMinimum.valuesIn],
        by simp [LeastOf, RollingMinimum.valuesIn]⟩
    exact hnone.add hwindow
  refine ⟨⟨rfl, ?_, hfollows⟩, ?_⟩
  · show x.localUs.toNat = _
    omega
  · exact hfollows.floor.of_some rfl

end Steps

/-- The run lemma. -/
theorem tracks_run (s : ClockOffset) (x : ClockSample) (later : List ClockSample)
    (htimes : (x :: later).Pairwise (·.localUs ≤ ·.localUs)) :
    ∀ last, (x :: later).getLast? = some last →
      Tracks x.localUs (clockOffset.run s.reset (x :: later)).1 (x :: later)
          (window x.localUs last) ∧
        IsLeast (recent x.localUs (window x.localUs last) (x :: later))
          (clockOffset.run s.reset (x :: later)).1.floor := by
  induction later using List.reverseRecOn with
  | nil =>
    rintro _ ⟨⟩
    exact tracks_first s x
  | append_singleton later y ih =>
    intro last hlast
    rw [← List.cons_append] at htimes hlast ⊢
    rw [List.getLast?_concat] at hlast
    obtain rfl := Option.some.inj hlast
    rcases List.pairwise_append.mp htimes with ⟨hbefore, -, hlate⟩
    cases hprevious : (x :: later).getLast? with
    | none => exact absurd (List.getLast?_eq_none_iff.mp hprevious) (List.cons_ne_nil _ _)
    | some previous =>
      have htracks := (ih hbefore previous hprevious).1
      rw [Machine.run_concat]
      apply htracks.addSample
      -- the window of the sample before starts no later than that sample
      have hmem := List.mem_of_getLast? hprevious
      have hlater := UInt64.le_iff_toNat_le.mp (hlate previous hmem y List.mem_cons_self)
      have hfirst : x.localUs.toNat ≤ previous.localUs.toNat := by
        rcases List.mem_cons.mp hmem with rfl | hmem
        · exact Nat.le_refl _
        · exact UInt64.le_iff_toNat_le.mp ((List.pairwise_cons.mp hbefore).1 previous hmem)
      rw [UInt64.le_iff_toNat_le, htracks.windowStart]
      have hstart : window x.localUs previous * kWindowUs.toNat ≤
          previous.localUs.toNat - x.localUs.toNat := Nat.div_mul_le_self _ _
      omega

end ClockOffset

end Deskhub
