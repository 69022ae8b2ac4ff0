import Deskhub.Protocol.Wire.Control

/-!
# The bitrate controller

`BitrateController`: what a feedback report makes of the bitrate and of forward error correction.
The streak of reports without loss is a number: while it matters it is below ten.
-/

namespace Deskhub

structure BitrateDecision where
  bitrateBps : UInt32 := 0
  changeBitrate : Bool := false
  fecEnabled : Bool := false
  fecToggled : Bool := false
deriving DecidableEq, Repr

structure BitrateController where
  cur : UInt32
  max : UInt32
  min : UInt32
  lastDecreaseUs : UInt64 := 0
  cleanSeconds : Nat := 0
  fec : Bool := true
deriving DecidableEq, Repr

/-- A bitrate held between bounds is more than one within them only when it was before. -/
theorem bitrate_held {lo hi cur : UInt32} (next : UInt32) (hlo : lo ≤ cur) (hhi : cur ≤ hi) :
    let held := if hi < next then hi else next
    let held := if held < lo then lo else held
    lo ≤ held ∧ held ≤ hi ∧ (cur < held → cur < next) := by
  intro capped held
  have hcapped : capped.toNat = min hi.toNat next.toNat := by
    show (if hi < next then hi else next).toNat = _
    by_cases h : hi < next
    · rw [if_pos h, Nat.min_eq_left (Nat.le_of_lt (UInt32.lt_iff_toNat_lt.mp h))]
    · rw [if_neg h, Nat.min_eq_right (UInt32.le_iff_toNat_le.mp (UInt32.not_lt.mp h))]
  have hheld : held.toNat = max lo.toNat capped.toNat := by
    show (if capped < lo then lo else capped).toNat = _
    by_cases h : capped < lo
    · rw [if_pos h, Nat.max_eq_left (Nat.le_of_lt (UInt32.lt_iff_toNat_lt.mp h))]
    · rw [if_neg h, Nat.max_eq_right (UInt32.le_iff_toNat_le.mp (UInt32.not_lt.mp h))]
  rw [UInt32.le_iff_toNat_le] at hlo hhi
  rw [UInt32.le_iff_toNat_le, UInt32.le_iff_toNat_le, UInt32.lt_iff_toNat_lt,
    UInt32.lt_iff_toNat_lt]
  refine ⟨?_, ?_, ?_⟩
  all_goals omega

namespace BitrateController

def kCleanSecondsBeforeDroppingFec : Nat := 10
def kBacklogMs : UInt32 := 150
def kSevereBacklogMs : UInt32 := 400

/-- The constructor. -/
def make (startBps minBps : UInt32) : BitrateController :=
  { cur := startBps, max := startBps, min := minBps }

/-- The part of `Update` about forward error correction. -/
def watchLoss (s : BitrateController) (fb : Feedback) : BitrateController :=
  if 1 ≤ fb.lossPct then { s with cleanSeconds := 0, fec := true }
  else
    let s := { s with cleanSeconds := s.cleanSeconds + 1 }
    if kCleanSecondsBeforeDroppingFec ≤ s.cleanSeconds then { s with fec := false } else s

/-- The part of `Update` about the bitrate: the next one before it is bounded, and the time of the
last decrease. -/
def aim (s : BitrateController) (fb : Feedback) (frameAgeMs : UInt32) (nowUs : UInt64) :
    UInt32 × UInt64 :=
  if 5 ≤ fb.lossPct ∨ kSevereBacklogMs ≤ frameAgeMs then (s.cur - s.cur / 4, nowUs)
  else if 2 ≤ fb.lossPct ∨ kBacklogMs ≤ frameAgeMs then (s.cur - s.cur / 10, nowUs)
  else if fb.lossPct ≤ 1 ∧ 2000000 < nowUs - s.lastDecreaseUs then
    (s.cur + s.max / 20, s.lastDecreaseUs)
  else (s.cur, s.lastDecreaseUs)

def update (s : BitrateController) (fb : Feedback) (frameAgeMs : UInt32) (nowUs : UInt64) :
    BitrateController × BitrateDecision :=
  let fecBefore := s.fec
  let s := s.watchLoss fb
  let (next, lastDecreaseUs) := s.aim fb frameAgeMs nowUs
  let s := { s with lastDecreaseUs := lastDecreaseUs }
  let next := if s.max < next then s.max else next
  let next := if next < s.min then s.min else next
  let delta := if s.cur < next then next - s.cur else s.cur - next
  let changeBitrate := next ≠ s.cur && s.cur / 50 ≤ delta
  (s,
    { bitrateBps := if changeBitrate then next else s.cur
      changeBitrate := changeBitrate
      fecEnabled := s.fec
      fecToggled := s.fec ≠ fecBefore })

def commitBitrate (s : BitrateController) (bps : UInt32) : BitrateController := { s with cur := bps }

def bitrateBps (s : BitrateController) : UInt32 := s.cur

def fecEnabled (s : BitrateController) : Bool := s.fec

/-! ## What a report does -/

/-- The report, or the age of the frames, calls for a decrease. -/
def CallsForDecrease (fb : Feedback) (frameAgeMs : UInt32) : Prop :=
  2 ≤ fb.lossPct ∨ kBacklogMs ≤ frameAgeMs

instance (fb : Feedback) (frameAgeMs : UInt32) : Decidable (CallsForDecrease fb frameAgeMs) :=
  inferInstanceAs (Decidable (_ ∨ _))

variable (s : BitrateController) (fb : Feedback) (frameAgeMs : UInt32) (nowUs : UInt64)

theorem watchLoss_keeps : (s.watchLoss fb).cur = s.cur ∧ (s.watchLoss fb).max = s.max ∧
    (s.watchLoss fb).min = s.min ∧ (s.watchLoss fb).lastDecreaseUs = s.lastDecreaseUs := by
  unfold watchLoss
  dsimp only
  split_ifs <;> exact ⟨rfl, rfl, rfl, rfl⟩

/-- A decrease is remembered, and only without one, two seconds after the last, more is aimed at. -/
theorem aim_spec : (CallsForDecrease fb frameAgeMs ∧ (s.aim fb frameAgeMs nowUs).1 ≤ s.cur ∧
      (s.aim fb frameAgeMs nowUs).2 = nowUs) ∨
    (¬ CallsForDecrease fb frameAgeMs ∧ (s.aim fb frameAgeMs nowUs).2 = s.lastDecreaseUs ∧
      ((s.aim fb frameAgeMs nowUs).1 = s.cur ∨ 2000000 < nowUs - s.lastDecreaseUs)) := by
  have hless : ∀ d : UInt32, s.cur - s.cur / d ≤ s.cur := by
    intro d
    have hpart : s.cur / d ≤ s.cur := by
      rw [UInt32.le_iff_toNat_le, UInt32.toNat_div]
      exact Nat.div_le_self _ _
    rw [UInt32.le_iff_toNat_le, UInt32.toNat_sub_of_le _ _ hpart]
    exact Nat.sub_le _ _
  unfold aim
  by_cases hsevere : 5 ≤ fb.lossPct ∨ kSevereBacklogMs ≤ frameAgeMs
  · rw [if_pos hsevere]
    refine .inl ⟨?_, hless 4, rfl⟩
    rcases hsevere with hloss | hage
    · exact .inl (UInt8.le_trans (by decide) hloss)
    · exact .inr (UInt32.le_trans (by decide) hage)
  rw [if_neg hsevere]
  by_cases hcalls : 2 ≤ fb.lossPct ∨ kBacklogMs ≤ frameAgeMs
  · rw [if_pos hcalls]
    exact .inl ⟨hcalls, hless 10, rfl⟩
  rw [if_neg hcalls]
  by_cases hraise : fb.lossPct ≤ 1 ∧ 2000000 < nowUs - s.lastDecreaseUs
  · rw [if_pos hraise]
    exact .inr ⟨hcalls, rfl, .inr hraise.2⟩
  · rw [if_neg hraise]
    exact .inr ⟨hcalls, rfl, .inl rfl⟩

/-- What `Update` leaves of the controller: the bitrate and its bounds stay. -/
theorem update_fst : (s.update fb frameAgeMs nowUs).1 =
    { s.watchLoss fb with lastDecreaseUs := ((s.watchLoss fb).aim fb frameAgeMs nowUs).2 } := rfl

/-- What `Update` decides: a bitrate within the bounds, more than before only without a call for a
decrease and two seconds after the last. -/
theorem update_decision (hlo : s.min ≤ s.cur) (hhi : s.cur ≤ s.max) :
    s.min ≤ (s.update fb frameAgeMs nowUs).2.bitrateBps ∧
      (s.update fb frameAgeMs nowUs).2.bitrateBps ≤ s.max ∧
      (s.cur < (s.update fb frameAgeMs nowUs).2.bitrateBps →
        ¬ CallsForDecrease fb frameAgeMs ∧ 2000000 < nowUs - s.lastDecreaseUs) := by
  rcases watchLoss_keeps s fb with ⟨hcur, hmax, hmin, hlast⟩
  have haim := aim_spec (s.watchLoss fb) fb frameAgeMs nowUs
  rw [hcur, hlast] at haim
  generalize hnext : ((s.watchLoss fb).aim fb frameAgeMs nowUs).1 = next at haim
  have hheld := bitrate_held next hlo hhi
  dsimp only at hheld
  generalize hbound : (if (if s.max < next then s.max else next) < s.min then s.min
    else if s.max < next then s.max else next) = held at hheld
  -- either nothing changes, or the bitrate aimed at is taken within the bounds
  have hdecided : (s.update fb frameAgeMs nowUs).2.bitrateBps = s.cur ∨
      (s.update fb frameAgeMs nowUs).2.bitrateBps = held := by
    unfold update
    dsimp only
    rw [hcur, hmax, hmin, hnext, hbound]
    by_cases hchange : (decide (held ≠ s.cur) &&
        decide (s.cur / 50 ≤ if s.cur < held then held - s.cur else s.cur - held)) = true
    · rw [if_pos hchange]
      exact .inr rfl
    · rw [if_neg hchange]
      exact .inl rfl
  rcases hdecided with hsame | htaken
  · rw [hsame]
    exact ⟨hlo, hhi, fun hlt => absurd hlt (UInt32.lt_irrefl _)⟩
  · rw [htaken]
    refine ⟨hheld.1, hheld.2.1, ?_⟩
    intro hraised
    have hmore := hheld.2.2 hraised
    rcases haim with ⟨-, hless, -⟩ | ⟨hcalm, -, hwhy⟩
    · exact absurd hmore (UInt32.not_lt.mpr hless)
    · refine ⟨hcalm, ?_⟩
      rcases hwhy with hequal | hlate
      · rw [hequal] at hmore
        exact absurd hmore (UInt32.lt_irrefl _)
      · exact hlate

end BitrateController

end Deskhub
