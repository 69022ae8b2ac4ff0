import Deskhub.Control.BitrateController
import Deskhub.Control.QualityLadder
import Deskhub.Session.SourcePipeline

/-!
# Feedback of the viewers

`ApplyFeedback`: a report is given to the bitrate controller, its decision is committed when the
encoder takes it, and the quality ladder follows. Between reports frames grow old.
-/

namespace Deskhub

structure FeedbackHooks where
  setEncoderBitrate : Option (UInt32 → Bool) := none
  applyQualityStep : Option (QualityLadder.Step → QualityLadder.Step → StreamSize) := none

structure FeedbackOutcome where
  fecToggled : Bool := false
  fecEnabled : Bool := false
  bitrateChanged : Bool := false
  previousBitrateBps : UInt32 := 0
  bitrateBps : UInt32 := 0
  qualityChanged : Bool := false
  previousStep : QualityLadder.Step := {}
  step : QualityLadder.Step := {}
  size : StreamSize := {}
deriving DecidableEq, Repr

/-- The fields of `SourcePipelineState` that feedback is about. -/
structure FeedbackState where
  uiRttMs : UInt32 := 0
  uiLossPct : UInt32 := 0
  uiRecvKbps : UInt32 := 0
  haveFeedback : Bool := false
  rate : BitrateController
  frameAgeMs : UInt32 := 0
  wantFec : Bool := true
  curBitrateBps : UInt32
  ladder : Option QualityLadder := none
  step : QualityLadder.Step := {}
  curFps : UInt32 := 0
  qualityChanged : Bool := false
deriving DecidableEq, Repr

namespace FeedbackState

/-- The constructor, with the ladder it is given afterwards. -/
def init (startBps minBps : UInt32) (ladder : Option QualityLadder) : FeedbackState :=
  { rate := .make startBps minBps, curBitrateBps := startBps, ladder := ladder }

/-- `frameAgeMs.Add`, of the capture thread. -/
def addFrameAge (st : FeedbackState) (ageMs : UInt32) : FeedbackState :=
  if st.frameAgeMs < ageMs then { st with frameAgeMs := ageMs } else st

/-- What is shown of a report. -/
def showFeedback (st : FeedbackState) (fb : Feedback) : FeedbackState :=
  { st with
    uiRttMs := fb.rttMs.toUInt32
    uiLossPct := fb.lossPct.toUInt32
    uiRecvKbps := fb.recvBitrateKbps
    haveFeedback := true }

/-- `if (d.fecToggled) ...`. -/
def toggleFec (st : FeedbackState) (out : FeedbackOutcome) (d : BitrateDecision) :
    FeedbackState × FeedbackOutcome :=
  if d.fecToggled then
    ({ st with wantFec := d.fecEnabled },
      { out with fecToggled := true, fecEnabled := d.fecEnabled })
  else (st, out)

/-- `if (d.changeBitrate) ...`. -/
def changeBitrate (st : FeedbackState) (out : FeedbackOutcome) (d : BitrateDecision)
    (hooks : FeedbackHooks) : FeedbackState × FeedbackOutcome :=
  if d.changeBitrate then
    let previous := st.rate.bitrateBps
    let taken :=
      match hooks.setEncoderBitrate with
      | some setEncoderBitrate => setEncoderBitrate d.bitrateBps
      | none => false
    if taken then
      ({ st with rate := st.rate.commitBitrate d.bitrateBps, curBitrateBps := d.bitrateBps },
        { out with bitrateChanged := true, previousBitrateBps := previous, bitrateBps := d.bitrateBps })
    else (st, out)
  else (st, out)

/-- The rest, about the quality ladder. -/
def followBitrate (st : FeedbackState) (out : FeedbackOutcome) (nowUs : UInt64)
    (hooks : FeedbackHooks) : FeedbackState × FeedbackOutcome :=
  match st.ladder with
  | none => (st, out)
  | some ladder =>
    let (ladder, changed) := ladder.update st.rate.bitrateBps nowUs
    let st := { st with ladder := some ladder }
    if !changed then (st, out)
    else
      let out := { out with previousStep := st.step }
      let st := { st with step := ladder.current, curFps := ladder.current.fps.toUInt32 }
      let out := { out with step := st.step, qualityChanged := true }
      let out :=
        match hooks.applyQualityStep with
        | some applyQualityStep => { out with size := applyQualityStep out.previousStep st.step }
        | none => out
      ({ st with qualityChanged := true }, out)

def applyFeedback (st : FeedbackState) (fb : Feedback) (nowUs : UInt64) (hooks : FeedbackHooks) :
    FeedbackState × FeedbackOutcome :=
  let st := st.showFeedback fb
  let (rate, d) := st.rate.update fb st.frameAgeMs nowUs
  let st := { st with rate := rate, frameAgeMs := 0 }
  let (st, out) := st.toggleFec {} d
  let (st, out) := st.changeBitrate out d hooks
  st.followBitrate out nowUs hooks

end FeedbackState

/-- What happens to a pipeline: a frame was delivered with an age, or a report came in. -/
inductive FeedbackInput where
  | frameAge (ageMs : UInt32)
  | feedback (fb : Feedback) (nowUs : UInt64) (hooks : FeedbackHooks)

/-- A report with the frame age it met, and the bitrate and the error correction before and after. -/
structure FeedbackReport where
  fb : Feedback
  frameAgeMs : UInt32
  nowUs : UInt64
  bpsBefore : UInt32
  bpsAfter : UInt32
  fecBefore : Bool
  fecAfter : Bool
deriving DecidableEq, Repr

/-- The report of a call. -/
def FeedbackState.report (st : FeedbackState) (fb : Feedback) (nowUs : UInt64)
    (hooks : FeedbackHooks) : FeedbackReport :=
  let after := (st.applyFeedback fb nowUs hooks).1
  { fb := fb
    frameAgeMs := st.frameAgeMs
    nowUs := nowUs
    bpsBefore := st.rate.bitrateBps
    bpsAfter := after.rate.bitrateBps
    fecBefore := st.wantFec
    fecAfter := after.wantFec }

/-- The pipeline under feedback. -/
def viewerFeedback : Machine FeedbackState FeedbackInput FeedbackReport where
  step st
    | .frameAge ageMs => (st.addFrameAge ageMs, [])
    | .feedback fb nowUs hooks =>
        ((st.applyFeedback fb nowUs hooks).1, [st.report fb nowUs hooks])

/-- The time of a report. -/
def FeedbackInput.time? : FeedbackInput → Option UInt64
  | .frameAge _ => none
  | .feedback _ nowUs _ => some nowUs

/-- The report, or the age it met, called for a decrease. -/
def FeedbackReport.CallsForDecrease (e : FeedbackReport) : Prop :=
  BitrateController.CallsForDecrease e.fb e.frameAgeMs

namespace FeedbackState

/-! ## What a report does -/

theorem followBitrate_keeps (st : FeedbackState) (out : FeedbackOutcome) (nowUs : UInt64)
    (hooks : FeedbackHooks) : (st.followBitrate out nowUs hooks).1.rate = st.rate ∧
      (st.followBitrate out nowUs hooks).1.wantFec = st.wantFec := by
  unfold followBitrate
  split
  · exact ⟨rfl, rfl⟩
  · dsimp only
    split_ifs <;> exact ⟨rfl, rfl⟩

theorem changeBitrate_spec (st : FeedbackState) (out : FeedbackOutcome) (d : BitrateDecision)
    (hooks : FeedbackHooks) : (st.changeBitrate out d hooks).1.wantFec = st.wantFec ∧
      ((st.changeBitrate out d hooks).1.rate = st.rate ∨
        (st.changeBitrate out d hooks).1.rate = st.rate.commitBitrate d.bitrateBps) := by
  unfold changeBitrate
  dsimp only
  by_cases hchange : d.changeBitrate = true
  · rw [if_pos hchange]
    generalize (match hooks.setEncoderBitrate with
      | some setEncoderBitrate => setEncoderBitrate d.bitrateBps
      | none => false) = taken
    cases taken with
    | false => exact ⟨rfl, .inl rfl⟩
    | true => exact ⟨rfl, .inr rfl⟩
  · rw [if_neg hchange]
    exact ⟨rfl, .inl rfl⟩

/-- The decision of the controller is carried out, the bitrate when the encoder takes it. -/
theorem decision_spec (st : FeedbackState) (d : BitrateDecision) (hooks : FeedbackHooks) :
    let toggled := st.toggleFec {} d
    ((toggled.1.changeBitrate toggled.2 d hooks).1.rate = st.rate ∨
        (toggled.1.changeBitrate toggled.2 d hooks).1.rate = st.rate.commitBitrate d.bitrateBps) ∧
      (toggled.1.changeBitrate toggled.2 d hooks).1.wantFec =
        if d.fecToggled then d.fecEnabled else st.wantFec := by
  intro toggled
  have htoggled : toggled.1.rate = st.rate ∧
      toggled.1.wantFec = if d.fecToggled then d.fecEnabled else st.wantFec := by
    show (st.toggleFec {} d).1.rate = st.rate ∧ (st.toggleFec {} d).1.wantFec = _
    unfold toggleFec
    split_ifs <;> exact ⟨rfl, rfl⟩
  rcases changeBitrate_spec toggled.1 toggled.2 d hooks with ⟨hfec, hrate⟩
  rw [htoggled.1] at hrate
  exact ⟨hrate, hfec.trans htoggled.2⟩

/-- What a report leaves: the controller after `Update`, with the bitrate decided on or not, and
error correction wanted as the controller has it. -/
theorem applyFeedback_spec (st : FeedbackState) (fb : Feedback) (nowUs : UInt64)
    (hooks : FeedbackHooks) :
    let u := st.rate.update fb st.frameAgeMs nowUs
    ((st.applyFeedback fb nowUs hooks).1.rate = u.1 ∨
        (st.applyFeedback fb nowUs hooks).1.rate = u.1.commitBitrate u.2.bitrateBps) ∧
      (st.applyFeedback fb nowUs hooks).1.wantFec =
        if u.2.fecToggled then u.2.fecEnabled else st.wantFec := by
  intro u
  unfold applyFeedback
  dsimp only
  rw [(followBitrate_keeps _ _ _ _).1, (followBitrate_keeps _ _ _ _).2]
  exact decision_spec _ _ _

/-! ## Every run -/

/-- What is promised about a report after others: no more bitrate within two seconds after a call
for a decrease, and error correction dropped only at the end of enough reports without loss. -/
structure Kept (past : List FeedbackReport) (e : FeedbackReport) : Prop where
  backsOff : ∀ d ∈ past, d.CallsForDecrease → e.nowUs.toNat ≤ d.nowUs.toNat + 2000000 →
    e.bpsAfter ≤ e.bpsBefore
  dropsFec : e.fecBefore = true → e.fecAfter = false → ∃ old streak, past ++ [e] = old ++ streak ∧
    BitrateController.kCleanSecondsBeforeDroppingFec ≤ streak.length ∧
    ∀ q ∈ streak, q.fb.lossPct = 0

/-- Where the controller stands after the reports of a run. -/
structure Steady (startBps minBps : UInt32) (st : FeedbackState) (out : List FeedbackReport) :
    Prop where
  max_eq : st.rate.max = startBps
  min_eq : st.rate.min = minBps
  min_le : minBps ≤ st.rate.cur
  le_max : st.rate.cur ≤ startBps
  fec_eq : st.wantFec = st.rate.fec
  decrease_le : ∀ d ∈ out, d.CallsForDecrease → d.nowUs ≤ st.rate.lastDecreaseUs
  decrease_mem : st.rate.lastDecreaseUs = 0 ∨ ∃ d ∈ out, d.nowUs = st.rate.lastDecreaseUs
  clean : ∃ old streak, out = old ++ streak ∧ streak.length = st.rate.cleanSeconds ∧
    ∀ q ∈ streak, q.fb.lossPct = 0

theorem steady_init {startBps minBps : UInt32} (h : minBps ≤ startBps)
    (ladder : Option QualityLadder) : Steady startBps minBps (init startBps minBps ladder) [] where
  max_eq := rfl
  min_eq := rfl
  min_le := h
  le_max := UInt32.le_refl _
  fec_eq := rfl
  decrease_le _ hd := absurd hd List.not_mem_nil
  decrease_mem := .inl rfl
  clean := ⟨[], [], rfl, rfl, fun _ hq => absurd hq List.not_mem_nil⟩

theorem Steady.addFrameAge {startBps minBps : UInt32} {st : FeedbackState}
    {out : List FeedbackReport} (h : Steady startBps minBps st out) (ageMs : UInt32) :
    Steady startBps minBps (st.addFrameAge ageMs) out := by
  unfold FeedbackState.addFrameAge
  split
  · exact ⟨h.max_eq, h.min_eq, h.min_le, h.le_max, h.fec_eq, h.decrease_le, h.decrease_mem, h.clean⟩
  · exact h

/-- The streak of reports without loss after one more, and when error correction is dropped. -/
theorem watchLoss_spec (s : BitrateController) (fb : Feedback) :
    (fb.lossPct ≠ 0 ∧ (s.watchLoss fb).cleanSeconds = 0 ∧ (s.watchLoss fb).fec = true) ∨
      (fb.lossPct = 0 ∧ (s.watchLoss fb).cleanSeconds = s.cleanSeconds + 1 ∧
        ((s.watchLoss fb).fec = s.fec ∨
          BitrateController.kCleanSecondsBeforeDroppingFec ≤ s.cleanSeconds + 1)) := by
  unfold BitrateController.watchLoss
  by_cases hloss : 1 ≤ fb.lossPct
  · rw [if_pos hloss]
    refine .inl ⟨?_, rfl, rfl⟩
    intro hzero
    rw [hzero] at hloss
    exact absurd hloss (by decide)
  rw [if_neg hloss]
  have hzero : fb.lossPct = 0 := by
    have hlt := UInt8.lt_iff_toNat_lt.mp (UInt8.not_le.mp hloss)
    apply UInt8.toNat_inj.mp
    exact Nat.lt_one_iff.mp hlt
  right
  refine ⟨hzero, ?_⟩
  dsimp only
  by_cases hlong : BitrateController.kCleanSecondsBeforeDroppingFec ≤ s.cleanSeconds + 1
  · rw [if_pos hlong]
    exact ⟨rfl, .inr hlong⟩
  · rw [if_neg hlong]
    exact ⟨rfl, .inl rfl⟩

/-- What a report leaves, field by field. -/
theorem applyFeedback_rate (st : FeedbackState) (fb : Feedback) (nowUs : UInt64)
    (hooks : FeedbackHooks) (hfec : st.wantFec = st.rate.fec) :
    ∃ bps, (bps = st.rate.cur ∨ bps = (st.rate.update fb st.frameAgeMs nowUs).2.bitrateBps) ∧
      (st.applyFeedback fb nowUs hooks).1.rate =
        { st.rate.watchLoss fb with
          cur := bps
          lastDecreaseUs := ((st.rate.watchLoss fb).aim fb st.frameAgeMs nowUs).2 } ∧
      (st.applyFeedback fb nowUs hooks).1.wantFec = (st.rate.watchLoss fb).fec := by
  rcases applyFeedback_spec st fb nowUs hooks with ⟨hrate, hwant⟩
  have hcur := (BitrateController.watchLoss_keeps st.rate fb).1
  have hwant' : (st.applyFeedback fb nowUs hooks).1.wantFec = (st.rate.watchLoss fb).fec := by
    rw [hwant]
    show (if decide ((st.rate.watchLoss fb).fec ≠ st.rate.fec) then (st.rate.watchLoss fb).fec
      else st.wantFec) = _
    by_cases hsame : (st.rate.watchLoss fb).fec = st.rate.fec
    · rw [if_neg (by simp [hsame]), hfec, hsame]
    · rw [if_pos (by simp [hsame])]
  rcases hrate with hkept | htaken
  · refine ⟨st.rate.cur, .inl rfl, ?_, hwant'⟩
    rw [hkept, BitrateController.update_fst, ← hcur]
  · refine ⟨_, .inr rfl, ?_, hwant'⟩
    rw [htaken, BitrateController.update_fst]
    rfl

section Step

variable {startBps minBps : UInt32} {st : FeedbackState} {out : List FeedbackReport}

/-- The last decrease was not after the reports of the past. -/
theorem Steady.lastDecrease_le (h : Steady startBps minBps st out) {nowUs : UInt64}
    (hlate : ∀ d ∈ out, d.nowUs ≤ nowUs) : st.rate.lastDecreaseUs ≤ nowUs := by
  rcases h.decrease_mem with hzero | ⟨d, hd, htime⟩
  · rw [hzero]
    exact UInt64.zero_le
  · rw [← htime]
    exact hlate d hd

/-- The streak of reports without loss is one longer. -/
theorem Steady.longer (h : Steady startBps minBps st out) {e : FeedbackReport}
    (hzero : e.fb.lossPct = 0) : ∃ old streak, out ++ [e] = old ++ streak ∧
      streak.length = st.rate.cleanSeconds + 1 ∧ ∀ q ∈ streak, q.fb.lossPct = 0 := by
  rcases h.clean with ⟨old, streak, hsplit, hlength, hclean⟩
  refine ⟨old, streak ++ [e], by rw [hsplit, List.append_assoc], ?_, ?_⟩
  · rw [List.length_append, hlength]
    rfl
  · intro q hq
    rcases List.mem_append.mp hq with hold | hnew
    · exact hclean q hold
    · rw [List.mem_singleton.mp hnew]
      exact hzero

/-- What is promised about the next report. -/
theorem Steady.kept (h : Steady startBps minBps st out) (fb : Feedback) {nowUs : UInt64}
    (hlate : ∀ d ∈ out, d.nowUs ≤ nowUs) (hooks : FeedbackHooks) :
    Kept out (st.report fb nowUs hooks) := by
  rcases applyFeedback_rate st fb nowUs hooks h.fec_eq with ⟨bps, hbps, hrate, hwant⟩
  constructor
  · -- a bitrate that was raised was raised two seconds after the last call for a decrease
    intro d hd hcalls hsoon
    show (st.applyFeedback fb nowUs hooks).1.rate.cur ≤ st.rate.cur
    rw [hrate]
    show bps ≤ st.rate.cur
    rcases hbps with hkept | htaken
    · exact Nat.le_of_eq (congrArg UInt32.toNat hkept)
    · rw [htaken]
      by_contra hraised
      have hdecided := BitrateController.update_decision st.rate fb st.frameAgeMs nowUs
        (h.min_eq ▸ h.min_le) (h.max_eq ▸ h.le_max)
      rcases hdecided.2.2 (UInt32.not_le.mp hraised) with ⟨-, hlong⟩
      have hlong' := UInt64.lt_iff_toNat_lt.mp hlong
      rw [UInt64.toNat_sub_of_le _ _ (h.lastDecrease_le hlate)] at hlong'
      have hd' := UInt64.le_iff_toNat_le.mp (h.decrease_le d hd hcalls)
      change 2000000 < _ at hlong'
      change nowUs.toNat ≤ _ at hsoon
      omega
  · intro hon hoff
    change st.wantFec = true at hon
    change (st.applyFeedback fb nowUs hooks).1.wantFec = false at hoff
    rw [hwant] at hoff
    rcases watchLoss_spec st.rate fb with ⟨-, -, hkept⟩ | ⟨hzero, -, hsame | hlong⟩
    · rw [hkept] at hoff
      cases hoff
    · rw [hsame, ← h.fec_eq, hon] at hoff
      cases hoff
    · rcases h.longer (e := st.report fb nowUs hooks) hzero with ⟨old, streak, hsplit, hlength, hclean⟩
      exact ⟨old, streak, hsplit, hlength ▸ hlong, hclean⟩

/-- The step lemma: a report not before those of the past. -/
theorem Steady.feedback (h : Steady startBps minBps st out) (fb : Feedback) {nowUs : UInt64}
    (hlate : ∀ d ∈ out, d.nowUs ≤ nowUs) (hooks : FeedbackHooks) :
    Steady startBps minBps (st.applyFeedback fb nowUs hooks).1
      (out ++ [st.report fb nowUs hooks]) := by
  rcases BitrateController.watchLoss_keeps st.rate fb with ⟨-, hmax, hmin, hlast⟩
  have hdecided := BitrateController.update_decision st.rate fb st.frameAgeMs nowUs
    (h.min_eq ▸ h.min_le) (h.max_eq ▸ h.le_max)
  have haim := BitrateController.aim_spec (st.rate.watchLoss fb) fb st.frameAgeMs nowUs
  rw [hlast] at haim
  rcases applyFeedback_rate st fb nowUs hooks h.fec_eq with ⟨bps, hbps, hrate, hwant⟩
  generalize he : st.report fb nowUs hooks = e
  have htime : e.nowUs = nowUs := by rw [← he]; rfl
  have hcallsNow : e.CallsForDecrease ↔ BitrateController.CallsForDecrease fb st.frameAgeMs := by
    rw [← he]
    exact Iff.rfl
  have hbounded : minBps ≤ bps ∧ bps ≤ startBps := by
    rcases hbps with hkept | htaken
    · rw [hkept]
      exact ⟨h.min_le, h.le_max⟩
    · rw [htaken, ← h.min_eq, ← h.max_eq]
      exact ⟨hdecided.1, hdecided.2.1⟩
  generalize (st.applyFeedback fb nowUs hooks).1 = after at hrate hwant
  constructor
  · rw [hrate]
    exact hmax.trans h.max_eq
  · rw [hrate]
    exact hmin.trans h.min_eq
  · rw [hrate]
    exact hbounded.1
  · rw [hrate]
    exact hbounded.2
  · rw [hrate]
    exact hwant
  · intro d hd hcalls
    rw [hrate]
    show d.nowUs ≤ ((st.rate.watchLoss fb).aim fb st.frameAgeMs nowUs).2
    rcases haim with ⟨-, -, hnow⟩ | ⟨hcalm, hsame, -⟩
    · rw [hnow]
      rcases List.mem_append.mp hd with hold | hnew
      · exact hlate d hold
      · rw [List.mem_singleton.mp hnew]
        exact Nat.le_of_eq (congrArg UInt64.toNat htime)
    · rw [hsame]
      rcases List.mem_append.mp hd with hold | hnew
      · exact h.decrease_le d hold hcalls
      · rw [List.mem_singleton.mp hnew, hcallsNow] at hcalls
        exact absurd hcalls hcalm
  · rw [hrate]
    show ((st.rate.watchLoss fb).aim fb st.frameAgeMs nowUs).2 = 0 ∨ ∃ d ∈ out ++ [e],
      d.nowUs = ((st.rate.watchLoss fb).aim fb st.frameAgeMs nowUs).2
    rcases haim with ⟨-, -, hnow⟩ | ⟨-, hsame, -⟩
    · rw [hnow]
      exact .inr ⟨e, List.mem_append_right _ (List.mem_singleton_self _), htime⟩
    · rw [hsame]
      rcases h.decrease_mem with hzero | ⟨d, hd, hwhen⟩
      · exact .inl hzero
      · exact .inr ⟨d, List.mem_append_left _ hd, hwhen⟩
  · rw [hrate]
    show ∃ old streak : List FeedbackReport, out ++ [e] = old ++ streak ∧
      streak.length = (st.rate.watchLoss fb).cleanSeconds ∧ _
    rcases watchLoss_spec st.rate fb with ⟨-, hnone, -⟩ | ⟨hzero, hnext, -⟩
    · refine ⟨_, [], (List.append_nil _).symm, hnone.symm, ?_⟩
      intro q hq
      exact absurd hq List.not_mem_nil
    · rw [hnext]
      apply h.longer
      rw [← he]
      exact hzero

end Step

/-- The times of the reports are those of the inputs. -/
theorem times_run (st : FeedbackState) (inputs : List FeedbackInput) :
    (viewerFeedback.run st inputs).2.map FeedbackReport.nowUs =
      inputs.filterMap FeedbackInput.time? := by
  induction inputs generalizing st with
  | nil => rfl
  | cons i inputs ih =>
    rw [Machine.run_cons, List.map_append, ih]
    cases i <;> rfl

/-- The run lemma: reports at nondecreasing times leave the controller steady, and each of them keeps
what is promised. -/
theorem steady_run {startBps minBps : UInt32} (hstart : minBps ≤ startBps)
    (ladder : Option QualityLadder) (inputs : List FeedbackInput)
    (hmono : (inputs.filterMap FeedbackInput.time?).Pairwise (· ≤ ·)) :
    Steady startBps minBps (viewerFeedback.run (init startBps minBps ladder) inputs).1
        (viewerFeedback.run (init startBps minBps ladder) inputs).2 ∧
      ∀ earlier e later, (viewerFeedback.run (init startBps minBps ladder) inputs).2 =
        earlier ++ e :: later → Kept earlier e := by
  induction inputs using List.reverseRecOn with
  | nil =>
    refine ⟨steady_init hstart ladder, ?_⟩
    intro earlier e later hsplit
    exact absurd hsplit.symm (List.append_ne_nil_of_right_ne_nil _ (List.cons_ne_nil _ _))
  | append_singleton inputs i ih =>
    rw [List.filterMap_append, List.pairwise_append] at hmono
    rcases ih hmono.1 with ⟨hsteady, hkept⟩
    rw [Machine.run_concat]
    cases i with
    | frameAge ageMs =>
      show Steady _ _ _ (_ ++ []) ∧ ∀ earlier e later, _ ++ [] = _ → _
      rw [List.append_nil]
      exact ⟨hsteady.addFrameAge ageMs, hkept⟩
    | feedback fb nowUs hooks =>
      have htimes := times_run (init startBps minBps ladder) inputs
      generalize viewerFeedback.run (init startBps minBps ladder) inputs = r at *
      have hlate : ∀ d ∈ r.2, d.nowUs ≤ nowUs := by
        intro d hd
        apply hmono.2.2 d.nowUs _ nowUs (List.mem_singleton_self nowUs)
        rw [← htimes]
        exact List.mem_map_of_mem hd
      refine ⟨hsteady.feedback fb hlate hooks, ?_⟩
      intro earlier e later hsplit
      change r.2 ++ [r.1.report fb nowUs hooks] = _ at hsplit
      rcases List.eq_nil_or_concat' later with rfl | ⟨front, last, rfl⟩
      · rcases List.append_inj' hsplit rfl with ⟨hold, hnew⟩
        rw [← hold, ← List.head_eq_of_cons_eq hnew]
        exact hsteady.kept fb hlate hooks
      · have hfront : r.2 = earlier ++ e :: front := by
          have hcut := hsplit
          rw [← List.cons_append, ← List.append_assoc] at hcut
          exact (List.append_inj' hcut rfl).1
        exact hkept earlier e front hfront

/-- The bitrate stays within its bounds without wrapping, and each report of every run backs off and
keeps error correction as promised. -/
theorem viewerFeedback_steady (startBps minBps : UInt32) (hstart : minBps ≤ startBps)
    (ladder : Option QualityLadder) (inputs : List FeedbackInput)
    (hmono : (inputs.filterMap FeedbackInput.time?).Pairwise (· ≤ ·)) :
    let r := viewerFeedback.run (init startBps minBps ladder) inputs
    (minBps ≤ r.1.rate.bitrateBps ∧ r.1.rate.bitrateBps ≤ startBps) ∧
      (startBps ≤ 4000000000 → (r.1.rate.cur + r.1.rate.max / 20).toNat =
        r.1.rate.cur.toNat + r.1.rate.max.toNat / 20) ∧
      ∀ earlier e later, r.2 = earlier ++ e :: later → Kept earlier e := by
  intro r
  rcases steady_run hstart ladder inputs hmono with ⟨hsteady, hkept⟩
  refine ⟨⟨hsteady.min_le, hsteady.le_max⟩, ?_, hkept⟩
  intro hlarge
  have hcur := UInt32.le_iff_toNat_le.mp hsteady.le_max
  have hmax := UInt32.le_iff_toNat_le.mp hlarge
  change _ ≤ 4000000000 at hmax
  change r.1.rate.cur.toNat ≤ _ at hcur
  have hmaxEq : r.1.rate.max = startBps := hsteady.max_eq
  rw [hmaxEq, UInt32.toNat_add, UInt32.toNat_div]
  show (r.1.rate.cur.toNat + startBps.toNat / 20) % 2 ^ 32 = _
  exact Nat.mod_eq_of_lt (by omega)

/-- A report with loss that the encoder does not follow, then one without loss. -/
theorem viewerFeedback_steady_refused :
    let r := viewerFeedback.run (init 20000000 1000000 (some (QualityLadder.make 1920 1080 60)))
      [.feedback ⟨6, 20, 9000⟩ 1000000 { setEncoderBitrate := some fun _ => false }, .frameAge 10,
        .feedback ⟨0, 20, 9000⟩ 2000000 { setEncoderBitrate := some fun _ => true }]
    (1000000 ≤ r.1.rate.bitrateBps ∧ r.1.rate.bitrateBps ≤ 20000000) ∧
      ((20000000 : UInt32) ≤ 4000000000 → (r.1.rate.cur + r.1.rate.max / 20).toNat =
        r.1.rate.cur.toNat + r.1.rate.max.toNat / 20) ∧
      ∀ earlier e later, r.2 = earlier ++ e :: later → Kept earlier e :=
  viewerFeedback_steady 20000000 1000000 (by decide) _ _ (by decide)

end FeedbackState

end Deskhub
