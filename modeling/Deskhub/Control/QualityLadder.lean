import Deskhub.Lib.Machine
import Mathlib.Data.List.Basic

/-!
# The quality ladder

`QualityLadder`: rungs of size and frame rate, dropped to at once when the bitrate is too small and
climbed one at a time when there was headroom for a while. Rungs are numbers from zero on.
-/

namespace Deskhub

structure Rung where
  scalePct : UInt8
  fps : UInt8
deriving DecidableEq, Repr

namespace QualityLadder

def kRungs : List Rung := [⟨100, 60⟩, ⟨100, 30⟩, ⟨100, 20⟩, ⟨75, 20⟩, ⟨50, 20⟩, ⟨50, 12⟩]

def kRungTotal : Nat := 6

def kMinW : UInt32 := 160
def kMinH : UInt32 := 64

def kBppNum : UInt64 := 8
def kBppDen : UInt64 := 100

def kUpHeadroomPct : UInt64 := 120
def kUpDwellUs : UInt64 := 5000000
def kUpDwellResizeUs : UInt64 := 15000000

def scaleEven (v : UInt16) (pct : UInt8) : UInt16 :=
  let s : UInt32 := (v.toUInt32 * pct.toUInt32) / 100
  (s &&& ~~~1).toUInt16

/-- `QualityStep`, with the size that is left out where only the offer reads it. -/
structure Step where
  width : UInt16 := 0
  height : UInt16 := 0
  fps : UInt8 := 0
  scalePct : UInt8 := 100
deriving DecidableEq, Repr

/-- `s.width < kMinW || s.height < kMinH`. -/
def Step.tooSmall (s : Step) : Bool := s.width.toUInt32 < kMinW || s.height.toUInt32 < kMinH

/-- The maxima of a ladder, which do not change. -/
structure Maxima where
  maxW : UInt16
  maxH : UInt16
  maxFps : UInt8
deriving DecidableEq, Repr

namespace Maxima

def stepAt (m : Maxima) (rung : Nat) : Step :=
  let rung := if kRungTotal ≤ rung then kRungTotal - 1 else rung
  let r := kRungs.getD rung ⟨100, 60⟩
  { width := scaleEven m.maxW r.scalePct
    height := scaleEven m.maxH r.scalePct
    fps := if r.fps < m.maxFps then r.fps else m.maxFps
    scalePct := r.scalePct }

def requiredBps (m : Maxima) (rung : Nat) : UInt32 :=
  let s := m.stepAt rung
  let pixelsPerSec := s.width.toUInt64 * s.height.toUInt64 * s.fps.toUInt64
  ((pixelsPerSec * kBppNum) / kBppDen).toUInt32

/-- The loop of the constructor, with the step counted last and the count so far. -/
def countFrom (m : Maxima) : List Nat → Step → Nat → Nat
  | [], _, count => count
  | i :: rest, prev, count =>
    let s := m.stepAt i
    if 0 < i ∧ s = prev then countFrom m rest prev count
    else if 0 < i ∧ s.tooSmall then count
    else countFrom m rest s (count + 1)

/-- What the constructor counts. -/
def count (m : Maxima) : Nat := m.countFrom (List.range kRungTotal) {} 0

end Maxima

end QualityLadder

open QualityLadder

structure QualityLadder where
  max : QualityLadder.Maxima
  count : Nat
  rung : Nat := 0
  step : QualityLadder.Step
  lastChangeUs : UInt64 := 0
  upSinceUs : UInt64 := 0
deriving DecidableEq, Repr

namespace QualityLadder

/-- The maxima given to the constructor, with its default for the frame rate. -/
def maxima (maxW maxH : UInt16) (maxFps : UInt8) : Maxima :=
  ⟨maxW, maxH, if maxFps ≠ 0 then maxFps else 60⟩

/-- The constructor. -/
def make (maxW maxH : UInt16) (maxFps : UInt8) : QualityLadder :=
  let m := maxima maxW maxH maxFps
  { max := m, count := m.count, step := m.stepAt 0 }

def current (s : QualityLadder) : Step := s.step

def bestRungFor (s : QualityLadder) (bitrateBps : UInt32) : Nat :=
  ((List.range s.count).find? fun i => decide (s.max.requiredBps i ≤ bitrateBps)).getD (s.count - 1)

/-- The bitrate that leaves headroom over a rung. -/
def need (m : Maxima) (rung : Nat) : UInt64 :=
  ((m.requiredBps rung).toUInt64 * kUpHeadroomPct) / 100

/-- How long a climb from one step to another waits. -/
def dwell (from' to' : Step) : UInt64 :=
  let resize := to'.width ≠ from'.width || to'.height ≠ from'.height
  if resize then kUpDwellResizeUs else kUpDwellUs

def update (s : QualityLadder) (bitrateBps : UInt32) (nowUs : UInt64) : QualityLadder × Bool :=
  let want := s.bestRungFor bitrateBps
  if s.rung < want then
    ({ s with rung := want, step := s.max.stepAt want, lastChangeUs := nowUs, upSinceUs := 0 }, true)
  else if s.rung = 0 then ({ s with upSinceUs := 0 }, false)
  else
    let next := s.rung - 1
    if bitrateBps.toUInt64 < need s.max next then ({ s with upSinceUs := 0 }, false)
    else if s.upSinceUs = 0 then ({ s with upSinceUs := nowUs }, false)
    else
      let cand := s.max.stepAt next
      if nowUs - s.upSinceUs < dwell s.step cand then (s, false)
      else if nowUs - s.lastChangeUs < dwell s.step cand then (s, false)
      else
        ({ s with rung := next, step := cand, lastChangeUs := nowUs, upSinceUs := 0 }, true)

end QualityLadder

/-- A call of `Update`. -/
structure LadderCall where
  bitrateBps : UInt32
  nowUs : UInt64
deriving DecidableEq, Repr

/-- A call with the rung before and after it and what it returned. -/
structure LadderEvent extends LadderCall where
  rungBefore : Nat
  rungAfter : Nat
  changed : Bool
deriving DecidableEq, Repr

/-- The calls of a ladder. -/
def qualityLadder : Machine QualityLadder LadderCall LadderEvent where
  step s c :=
    let r := s.update c.bitrateBps c.nowUs
    (r.1, [⟨c, s.rung, r.1.rung, r.2⟩])

namespace QualityLadder

/-! ## What a call does -/

/-- What `Update` can do. -/
inductive UpdateAs (s : QualityLadder) (bitrateBps : UInt32) (nowUs : UInt64) :
    QualityLadder × Bool → Prop
  | drops (want : Nat) (hwant : s.bestRungFor bitrateBps = want) (hdown : s.rung < want) :
      UpdateAs s bitrateBps nowUs
        ({ s with rung := want, step := s.max.stepAt want, lastChangeUs := nowUs, upSinceUs := 0 },
          true)
  /-- At the top, or without headroom. -/
  | rests (hwant : s.bestRungFor bitrateBps ≤ s.rung)
      (hwhy : s.rung = 0 ∨ bitrateBps.toUInt64 < need s.max (s.rung - 1)) :
      UpdateAs s bitrateBps nowUs ({ s with upSinceUs := 0 }, false)
  | starts (hwant : s.bestRungFor bitrateBps ≤ s.rung) (hpos : 0 < s.rung)
      (hneed : need s.max (s.rung - 1) ≤ bitrateBps.toUInt64) (hnone : s.upSinceUs = 0) :
      UpdateAs s bitrateBps nowUs ({ s with upSinceUs := nowUs }, false)
  | waits (hwant : s.bestRungFor bitrateBps ≤ s.rung) (hpos : 0 < s.rung)
      (hneed : need s.max (s.rung - 1) ≤ bitrateBps.toUInt64) (hsince : s.upSinceUs ≠ 0)
      (hshort : nowUs - s.upSinceUs < dwell s.step (s.max.stepAt (s.rung - 1)) ∨
        nowUs - s.lastChangeUs < dwell s.step (s.max.stepAt (s.rung - 1))) :
      UpdateAs s bitrateBps nowUs (s, false)
  | climbs (next : Nat) (hnext : s.rung = next + 1) (hwant : s.bestRungFor bitrateBps ≤ s.rung)
      (hneed : need s.max next ≤ bitrateBps.toUInt64) (hsince : s.upSinceUs ≠ 0)
      (hup : dwell s.step (s.max.stepAt next) ≤ nowUs - s.upSinceUs)
      (hlast : dwell s.step (s.max.stepAt next) ≤ nowUs - s.lastChangeUs) :
      UpdateAs s bitrateBps nowUs
        ({ s with rung := next, step := s.max.stepAt next, lastChangeUs := nowUs, upSinceUs := 0 },
          true)

theorem update_as (s : QualityLadder) (bitrateBps : UInt32) (nowUs : UInt64) :
    UpdateAs s bitrateBps nowUs (s.update bitrateBps nowUs) := by
  unfold update
  dsimp only
  by_cases hdown : s.rung < s.bestRungFor bitrateBps
  · rw [if_pos hdown]
    exact .drops _ rfl hdown
  rw [if_neg hdown]
  have hwant := Nat.not_lt.mp hdown
  by_cases htop : s.rung = 0
  · rw [if_pos htop]
    exact .rests hwant (.inl htop)
  rw [if_neg htop]
  have hpos := Nat.pos_of_ne_zero htop
  by_cases hshort : bitrateBps.toUInt64 < need s.max (s.rung - 1)
  · rw [if_pos hshort]
    exact .rests hwant (.inr hshort)
  rw [if_neg hshort]
  have hneed := UInt64.not_lt.mp hshort
  by_cases hnone : s.upSinceUs = 0
  · rw [if_pos hnone]
    exact .starts hwant hpos hneed hnone
  rw [if_neg hnone]
  by_cases hup : nowUs - s.upSinceUs < dwell s.step (s.max.stepAt (s.rung - 1))
  · rw [if_pos hup]
    exact .waits hwant hpos hneed hnone (.inl hup)
  rw [if_neg hup]
  by_cases hlast : nowUs - s.lastChangeUs < dwell s.step (s.max.stepAt (s.rung - 1))
  · rw [if_pos hlast]
    exact .waits hwant hpos hneed hnone (.inr hlast)
  rw [if_neg hlast]
  exact .climbs (s.rung - 1) (by omega) hwant hneed hnone (UInt64.not_lt.mp hup)
    (UInt64.not_lt.mp hlast)

/-- The rung wanted is one that the bitrate is enough for and none before it, or the last one. -/
theorem bestRungFor_cases (s : QualityLadder) (bitrateBps : UInt32) :
    (s.bestRungFor bitrateBps < s.count ∧
        s.max.requiredBps (s.bestRungFor bitrateBps) ≤ bitrateBps ∧
        ∀ i < s.bestRungFor bitrateBps, bitrateBps < s.max.requiredBps i) ∨
      (s.bestRungFor bitrateBps = s.count - 1 ∧ ∀ i < s.count, bitrateBps < s.max.requiredBps i) := by
  unfold bestRungFor
  cases hfind : (List.range s.count).find? fun i => decide (s.max.requiredBps i ≤ bitrateBps) with
  | none =>
    right
    refine ⟨rfl, ?_⟩
    intro i hi
    have hno := List.find?_eq_none.mp hfind i (List.mem_range.mpr hi)
    simpa using hno
  | some want =>
    left
    rw [Option.getD_some]
    rcases List.find?_range_eq_some.mp hfind with ⟨henough, hmem, hbefore⟩
    refine ⟨List.mem_range.mp hmem, of_decide_eq_true henough, ?_⟩
    intro i hi
    simpa using hbefore i hi

/-- The rung wanted is the first one that the bitrate is enough for. -/
theorem bestRungFor_le {s : QualityLadder} {bitrateBps : UInt32} {rung : Nat} (hrung : rung < s.count)
    (h : s.max.requiredBps rung ≤ bitrateBps) : s.bestRungFor bitrateBps ≤ rung := by
  rcases s.bestRungFor_cases bitrateBps with ⟨-, -, hbefore⟩ | ⟨-, hnone⟩
  · by_contra hlt
    exact absurd (hbefore rung (Nat.not_le.mp hlt)) (UInt32.not_lt.mpr h)
  · exact absurd (hnone rung hrung) (UInt32.not_lt.mpr h)

theorem toNat_need (m : Maxima) (rung : Nat) :
    (need m rung).toNat = (m.requiredBps rung).toNat * 120 / 100 := by
  have hlt := (m.requiredBps rung).toNat_lt
  have hprod : ((m.requiredBps rung).toUInt64 * kUpHeadroomPct).toNat =
      (m.requiredBps rung).toNat * 120 := by
    rw [UInt64.toNat_mul, UInt32.toNat_toUInt64]
    show (m.requiredBps rung).toNat * 120 % 2 ^ 64 = _
    omega
  unfold need
  rw [UInt64.toNat_div, hprod]
  rfl

/-! ## What every call keeps -/

/-- A ladder for the maxima stands on one of its rungs. -/
structure OnRung (m : Maxima) (s : QualityLadder) : Prop where
  max_eq : s.max = m
  count_eq : s.count = m.count
  rung_lt : s.rung < s.count
  step_eq : s.step = m.stepAt s.rung

theorem OnRung.update {m : Maxima} {s : QualityLadder} (h : OnRung m s) (bitrateBps : UInt32)
    (nowUs : UInt64) : OnRung m (s.update bitrateBps nowUs).1 := by
  have hcall := update_as s bitrateBps nowUs
  generalize s.update bitrateBps nowUs = r at hcall ⊢
  cases hcall with
  | drops want hwant hdown =>
    have hlt : want < s.count := by
      rcases s.bestRungFor_cases bitrateBps with ⟨hlt, -⟩ | ⟨hlast, -⟩
      · exact hwant ▸ hlt
      · omega
    exact ⟨h.max_eq, h.count_eq, hlt, by rw [h.max_eq]⟩
  | rests => exact ⟨h.max_eq, h.count_eq, h.rung_lt, h.step_eq⟩
  | starts => exact ⟨h.max_eq, h.count_eq, h.rung_lt, h.step_eq⟩
  | waits => exact h
  | climbs next hnext =>
    have hlt : next < s.count := by
      have hrung := h.rung_lt
      omega
    exact ⟨h.max_eq, h.count_eq, hlt, by rw [h.max_eq]⟩

theorem OnRung.run {m : Maxima} {s : QualityLadder} (h : OnRung m s) (calls : List LadderCall) :
    OnRung m (qualityLadder.run s calls).1 :=
  Machine.run_invariant' (fun (s : QualityLadder) _ => OnRung m s) h
    (fun _ _ c hs => hs.update c.bitrateBps c.nowUs) calls

end QualityLadder

end Deskhub
