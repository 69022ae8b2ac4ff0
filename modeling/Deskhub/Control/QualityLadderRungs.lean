import Deskhub.Control.QualityLadder
import Mathlib.Tactic.IntervalCases

/-!
# Which rungs a ladder uses

The number of rungs counts distinct steps while the rung is an index of the table, so for frame
rates that make rungs coincide the last steps are out of reach, and a climb may change nothing.
-/

namespace Deskhub

namespace QualityLadder

/-- In every run a call returns true exactly when the step changes. -/
def ReportsChanges (s₀ : QualityLadder) : Prop :=
  ∀ (calls : List LadderCall) (bitrateBps : UInt32) (nowUs : UInt64),
    let s := (qualityLadder.run s₀ calls).1
    (s.update bitrateBps nowUs).2 = true ↔ (s.update bitrateBps nowUs).1.current ≠ s.current

/-- Neither the rung nor one with a smaller number is below the minimum size. -/
def Maxima.Fits (m : Maxima) (rung : Nat) : Prop := ∀ i ≤ rung, (m.stepAt i).tooSmall = false

instance (m : Maxima) (rung : Nat) : Decidable (m.Fits rung) :=
  inferInstanceAs (Decidable (∀ i ≤ rung, (m.stepAt i).tooSmall = false))

/-- Every step of the table that fits is reached by some run. -/
def UsesRungs (s₀ : QualityLadder) : Prop :=
  ∀ rung, s₀.max.Fits rung → ∃ calls, (qualityLadder.run s₀ calls).1.current = s₀.max.stepAt rung

/-- A rung can be entered: dropped to, because some bitrate is enough for it and for none before it,
or climbed to, because the bitrate with headroom over it fits 32 bits; the last rung is dropped to
when a bitrate is too small for the others. -/
def Maxima.Enterable (m : Maxima) (rung : Nat) : Prop :=
  (∀ i < rung, m.requiredBps rung < m.requiredBps i) ∨
    if rung + 1 < kRungTotal ∧ m.Fits (rung + 1) then
      (m.requiredBps rung).toNat * 120 / 100 < 2 ^ 32
    else ∀ i < rung, 0 < m.requiredBps i

/-! ## The steps -/

namespace Maxima

/-- The size at a scale is below the minimum. -/
def small (m : Maxima) (pct : UInt8) : Bool :=
  (scaleEven m.maxW pct).toUInt32 < kMinW || (scaleEven m.maxH pct).toUInt32 < kMinH

theorem toNat_capped (a b : UInt8) : (if a < b then a else b).toNat = min a.toNat b.toNat := by
  by_cases h : a < b
  · rw [if_pos h, Nat.min_eq_left (Nat.le_of_lt (UInt8.lt_iff_toNat_lt.mp h))]
  · rw [if_neg h, Nat.min_eq_right (UInt8.le_iff_toNat_le.mp (UInt8.not_lt.mp h))]

/-- A rung of the table. -/
def rungAt (rung : Nat) : Rung := kRungs.getD rung ⟨100, 60⟩

theorem scalePct_stepAt (m : Maxima) {rung : Nat} (h : rung < kRungTotal) :
    (m.stepAt rung).scalePct = (rungAt rung).scalePct := by
  unfold stepAt
  rw [if_neg (Nat.not_le.mpr h)]
  rfl

/-- The frame rate of a rung is the one of the table, up to the maximum. -/
theorem fps_stepAt (m : Maxima) {rung : Nat} (h : rung < kRungTotal) :
    (m.stepAt rung).fps.toNat = min (rungAt rung).fps.toNat m.maxFps.toNat := by
  unfold stepAt
  rw [if_neg (Nat.not_le.mpr h)]
  exact toNat_capped _ _

theorem tooSmall_stepAt (m : Maxima) {rung : Nat} (h : rung < kRungTotal) :
    (m.stepAt rung).tooSmall = m.small (rungAt rung).scalePct := by
  unfold stepAt
  rw [if_neg (Nat.not_le.mpr h)]
  rfl

/-- Rungs of one scale are one step when the maximum cuts both rates. -/
theorem stepAt_eq {m : Maxima} {i j : Nat} (hi : i < kRungTotal) (hj : j < kRungTotal)
    (hscale : (rungAt i).scalePct = (rungAt j).scalePct) (hcut : m.maxFps ≤ (rungAt i).fps)
    (hcut' : m.maxFps ≤ (rungAt j).fps) : m.stepAt i = m.stepAt j := by
  have hstep : ∀ k, k < kRungTotal → m.maxFps ≤ (rungAt k).fps →
      m.stepAt k = ⟨scaleEven m.maxW (rungAt k).scalePct, scaleEven m.maxH (rungAt k).scalePct,
        m.maxFps, (rungAt k).scalePct⟩ := by
    intro k hk hle
    unfold stepAt
    rw [if_neg (Nat.not_le.mpr hk)]
    show Step.mk _ _ (if (rungAt k).fps < m.maxFps then (rungAt k).fps else m.maxFps) _ = _
    rw [if_neg (UInt8.not_lt.mpr hle)]
    rfl
  rw [hstep i hi hcut, hstep j hj hcut', hscale]

theorem stepAt_ne_of_scale {m : Maxima} {i j : Nat} (hi : i < kRungTotal) (hj : j < kRungTotal)
    (h : (rungAt i).scalePct ≠ (rungAt j).scalePct) : m.stepAt i ≠ m.stepAt j := by
  intro heq
  apply h
  rw [← scalePct_stepAt m hi, ← scalePct_stepAt m hj, heq]

theorem stepAt_ne_of_rate {m : Maxima} {i j : Nat} (hi : i < kRungTotal) (hj : j < kRungTotal)
    (h : (rungAt i).fps.toNat < (rungAt j).fps.toNat)
    (hcut : (rungAt i).fps.toNat < m.maxFps.toNat) : m.stepAt i ≠ m.stepAt j := by
  intro heq
  have hrate : (m.stepAt i).fps.toNat = (m.stepAt j).fps.toNat := by rw [heq]
  rw [fps_stepAt m hi, fps_stepAt m hj] at hrate
  omega

/-- Rungs of one scale have different rates, the lower one at most 30. -/
theorem kRungs_distinct : ∀ i j : Fin kRungTotal,
    (rungAt i).scalePct = (rungAt j).scalePct → i ≠ j →
    (rungAt i).fps.toNat < (rungAt j).fps.toNat ∧ (rungAt i).fps.toNat ≤ 30 ∨
      (rungAt j).fps.toNat < (rungAt i).fps.toNat ∧ (rungAt j).fps.toNat ≤ 30 := by
  decide

/-- Above 30 frames a second no two rungs are one step. -/
theorem stepAt_injective {m : Maxima} (hfps : 30 < m.maxFps.toNat) {i j : Nat} (hi : i < kRungTotal)
    (hj : j < kRungTotal) (h : m.stepAt i = m.stepAt j) : i = j := by
  have hrate : (m.stepAt i).fps.toNat = (m.stepAt j).fps.toNat := by rw [h]
  have hscale : (m.stepAt i).scalePct = (m.stepAt j).scalePct := by rw [h]
  rw [fps_stepAt m hi, fps_stepAt m hj] at hrate
  rw [scalePct_stepAt m hi, scalePct_stepAt m hj] at hscale
  by_contra hne
  have hdistinct := kRungs_distinct ⟨i, hi⟩ ⟨j, hj⟩ hscale (fun heq => hne (Fin.mk.inj heq))
  dsimp only at hdistinct
  omega

theorem toNat_and_not_one (x : UInt32) : (x &&& ~~~1).toNat = x.toNat / 2 * 2 := by
  have hmask : (~~~1 : UInt32).toNat = (2 ^ 31 - 1) <<< 1 := by decide
  have hshift : x.toNat / 2 * 2 = (x.toNat >>> 1) <<< 1 := by
    rw [Nat.shiftLeft_eq, Nat.shiftRight_eq_div_pow]
  have hlt := x.toNat_lt
  rw [UInt32.toNat_and, hmask, hshift]
  apply Nat.eq_of_testBit_eq
  intro i
  rw [Nat.testBit_and, Nat.testBit_shiftLeft, Nat.testBit_shiftLeft, Nat.testBit_shiftRight,
    Nat.testBit_two_pow_sub_one]
  cases i with
  | zero => simp
  | succ i =>
    have hback : 1 + (i + 1 - 1) = i + 1 := by omega
    rw [hback]
    by_cases hi : i < 31
    · simp [hi]
    · have hhigh : x.toNat.testBit (i + 1) = false := Nat.testBit_lt_two_pow
        (Nat.lt_of_lt_of_le hlt (Nat.pow_le_pow_right (by decide) (by omega)))
      rw [hhigh]
      simp

theorem toNat_scaleEven (v : UInt16) {pct : UInt8} (hpct : pct.toNat ≤ 100) :
    (scaleEven v pct).toNat = v.toNat * pct.toNat / 100 / 2 * 2 := by
  have hv := v.toNat_lt
  have hle : v.toNat * pct.toNat ≤ v.toNat * 100 := Nat.mul_le_mul_left _ hpct
  unfold scaleEven
  dsimp only
  rw [UInt32.toNat_toUInt16, toNat_and_not_one, UInt32.toNat_div, UInt32.toNat_mul,
    UInt16.toNat_toUInt32, UInt8.toNat_toUInt32]
  show v.toNat * pct.toNat % 2 ^ 32 / 100 / 2 * 2 % 2 ^ 16 = _
  omega

theorem small_iff (m : Maxima) {pct : UInt8} (hpct : pct.toNat ≤ 100) :
    m.small pct = true ↔ m.maxW.toNat * pct.toNat / 100 / 2 * 2 < 160 ∨
      m.maxH.toNat * pct.toNat / 100 / 2 * 2 < 64 := by
  unfold small
  rw [Bool.or_eq_true, decide_eq_true_iff, decide_eq_true_iff, UInt32.lt_iff_toNat_lt,
    UInt32.lt_iff_toNat_lt, UInt16.toNat_toUInt32, UInt16.toNat_toUInt32, toNat_scaleEven _ hpct,
    toNat_scaleEven _ hpct]
  rfl

theorem small_full_iff (m : Maxima) : m.small 100 = true ↔ m.maxW < 160 ∨ m.maxH < 64 := by
  rw [m.small_iff (by decide), UInt16.lt_iff_toNat_lt, UInt16.lt_iff_toNat_lt]
  show m.maxW.toNat * 100 / 100 / 2 * 2 < 160 ∨ m.maxH.toNat * 100 / 100 / 2 * 2 < 64 ↔
    m.maxW.toNat < 160 ∨ m.maxH.toNat < 64
  omega

theorem small_quarter_iff (m : Maxima) : m.small 75 = true ↔ m.maxW < 214 ∨ m.maxH < 86 := by
  rw [m.small_iff (by decide), UInt16.lt_iff_toNat_lt, UInt16.lt_iff_toNat_lt]
  show m.maxW.toNat * 75 / 100 / 2 * 2 < 160 ∨ m.maxH.toNat * 75 / 100 / 2 * 2 < 64 ↔
    m.maxW.toNat < 214 ∨ m.maxH.toNat < 86
  omega

/-- What is too small at one scale is too small at a smaller one. -/
theorem small_mono (m : Maxima) {pct pct' : UInt8} (hle : pct'.toNat ≤ pct.toNat)
    (hpct : pct.toNat ≤ 100) (h : m.small pct = true) : m.small pct' = true := by
  rw [m.small_iff hpct] at h
  rw [m.small_iff (Nat.le_trans hle hpct)]
  have hw : m.maxW.toNat * pct'.toNat ≤ m.maxW.toNat * pct.toNat := Nat.mul_le_mul_left _ hle
  have hh : m.maxH.toNat * pct'.toNat ≤ m.maxH.toNat * pct.toNat := Nat.mul_le_mul_left _ hle
  rcases h with h | h
  · left
    omega
  · right
    omega

/-! ## How many rungs are counted -/

section Count

variable {m : Maxima}

/-- The loop of the constructor over the six rungs. -/
theorem count_eq (m : Maxima) : m.count = m.countFrom [1, 2, 3, 4, 5] (m.stepAt 0) 1 := rfl

theorem countFrom_skip {i : Nat} {rest : List Nat} {prev : Step} {count : Nat}
    (h : 0 < i ∧ m.stepAt i = prev) :
    m.countFrom (i :: rest) prev count = m.countFrom rest prev count := by
  rw [countFrom]
  exact if_pos h

theorem countFrom_stop {i : Nat} {rest : List Nat} {prev : Step} {count : Nat} (hi : 0 < i)
    (hne : m.stepAt i ≠ prev) (hsmall : (m.stepAt i).tooSmall = true) :
    m.countFrom (i :: rest) prev count = count := by
  rw [countFrom]
  rw [if_neg (fun h => hne h.2), if_pos ⟨hi, hsmall⟩]

theorem countFrom_next {i : Nat} {rest : List Nat} {prev : Step} {count : Nat}
    (hne : m.stepAt i ≠ prev) (hfits : (m.stepAt i).tooSmall = false) :
    m.countFrom (i :: rest) prev count = m.countFrom rest (m.stepAt i) (count + 1) := by
  rw [countFrom]
  rw [if_neg (fun h => hne h.2), if_neg (fun h => by rw [hfits] at h; cases h.2)]

/-- Above 30 frames a second every rung that fits is counted. -/
theorem count_high (hfps : 30 < m.maxFps.toNat) :
    m.count = if m.small 100 then 1 else if m.small 75 then 3 else if m.small 50 then 4 else 6 := by
  have hne : ∀ i j, i < kRungTotal → j < kRungTotal → i ≠ j → m.stepAt i ≠ m.stepAt j :=
    fun i j hi hj hij heq => hij (stepAt_injective hfps hi hj heq)
  rw [count_eq]
  by_cases hfull : m.small 100 = true
  · rw [if_pos hfull, countFrom_stop (by decide) (hne 1 0 (by decide) (by decide) (by decide)) hfull]
  have hfull' := Bool.eq_false_iff.mpr hfull
  rw [if_neg hfull, countFrom_next (hne 1 0 (by decide) (by decide) (by decide)) hfull',
    countFrom_next (hne 2 1 (by decide) (by decide) (by decide)) hfull']
  by_cases hquarter : m.small 75 = true
  · rw [if_pos hquarter,
      countFrom_stop (by decide) (hne 3 2 (by decide) (by decide) (by decide)) hquarter]
  have hquarter' := Bool.eq_false_iff.mpr hquarter
  rw [if_neg hquarter,
    countFrom_next (hne 3 2 (by decide) (by decide) (by decide)) hquarter']
  by_cases hhalf : m.small 50 = true
  · rw [if_pos hhalf, countFrom_stop (by decide) (hne 4 3 (by decide) (by decide) (by decide)) hhalf]
  have hhalf' := Bool.eq_false_iff.mpr hhalf
  rw [if_neg hhalf, countFrom_next (hne 4 3 (by decide) (by decide) (by decide)) hhalf',
    countFrom_next (hne 5 4 (by decide) (by decide) (by decide)) hhalf']
  rfl

/-- From 21 to 30 frames a second the first two rungs are counted once. -/
theorem count_middle (hlow : 20 < m.maxFps.toNat) (hfps : m.maxFps.toNat ≤ 30) :
    m.count = if m.small 100 then 1 else if m.small 75 then 2 else if m.small 50 then 3 else 5 := by
  have hsame : m.stepAt 1 = m.stepAt 0 := stepAt_eq (by decide) (by decide) rfl
    (UInt8.le_iff_toNat_le.mpr hfps) (UInt8.le_iff_toNat_le.mpr (Nat.le_trans hfps (by decide)))
  have hne2 : m.stepAt 2 ≠ m.stepAt 0 :=
    stepAt_ne_of_rate (by decide) (by decide) (by decide) hlow
  have hne3 : m.stepAt 3 ≠ m.stepAt 2 := stepAt_ne_of_scale (by decide) (by decide) (by decide)
  have hne4 : m.stepAt 4 ≠ m.stepAt 3 := stepAt_ne_of_scale (by decide) (by decide) (by decide)
  have hne5 : m.stepAt 5 ≠ m.stepAt 4 := stepAt_ne_of_rate (by decide) (by decide) (by decide)
    (Nat.lt_trans (by decide) hlow)
  rw [count_eq, countFrom_skip ⟨by decide, hsame⟩]
  by_cases hfull : m.small 100 = true
  · rw [if_pos hfull, countFrom_stop (by decide) hne2 hfull]
  have hfull' := Bool.eq_false_iff.mpr hfull
  rw [if_neg hfull, countFrom_next hne2 hfull']
  by_cases hquarter : m.small 75 = true
  · rw [if_pos hquarter, countFrom_stop (by decide) hne3 hquarter]
  have hquarter' := Bool.eq_false_iff.mpr hquarter
  rw [if_neg hquarter, countFrom_next hne3 hquarter']
  by_cases hhalf : m.small 50 = true
  · rw [if_pos hhalf, countFrom_stop (by decide) hne4 hhalf]
  have hhalf' := Bool.eq_false_iff.mpr hhalf
  rw [if_neg hhalf, countFrom_next hne4 hhalf',
    countFrom_next hne5 hhalf']
  rfl

/-- Up to 20 frames a second the first three rungs are counted once, up to 12 the last two as well. -/
theorem count_low (hfps : m.maxFps.toNat ≤ 20) :
    m.count = if m.small 75 then 1 else if m.small 50 then 2 else if 12 < m.maxFps.toNat then 4
      else 3 := by
  have hcut : ∀ rate : UInt8, 20 ≤ rate.toNat → m.maxFps ≤ rate :=
    fun rate hrate => UInt8.le_iff_toNat_le.mpr (Nat.le_trans hfps hrate)
  have hsame : m.stepAt 1 = m.stepAt 0 :=
    stepAt_eq (by decide) (by decide) rfl (hcut _ (by decide)) (hcut _ (by decide))
  have hsame' : m.stepAt 2 = m.stepAt 0 :=
    stepAt_eq (by decide) (by decide) rfl (hcut _ (by decide)) (hcut _ (by decide))
  have hne3 : m.stepAt 3 ≠ m.stepAt 0 := stepAt_ne_of_scale (by decide) (by decide) (by decide)
  have hne4 : m.stepAt 4 ≠ m.stepAt 3 := stepAt_ne_of_scale (by decide) (by decide) (by decide)
  rw [count_eq, countFrom_skip ⟨by decide, hsame⟩, countFrom_skip ⟨by decide, hsame'⟩]
  by_cases hquarter : m.small 75 = true
  · rw [if_pos hquarter, countFrom_stop (by decide) hne3 hquarter]
  have hquarter' := Bool.eq_false_iff.mpr hquarter
  rw [if_neg hquarter, countFrom_next hne3 hquarter']
  by_cases hhalf : m.small 50 = true
  · rw [if_pos hhalf, countFrom_stop (by decide) hne4 hhalf]
  have hhalf' := Bool.eq_false_iff.mpr hhalf
  rw [if_neg hhalf, countFrom_next hne4 hhalf']
  by_cases htwelve : 12 < m.maxFps.toNat
  · have hne5 : m.stepAt 5 ≠ m.stepAt 4 :=
      stepAt_ne_of_rate (by decide) (by decide) (by decide) htwelve
    rw [if_pos htwelve, countFrom_next hne5 hhalf']
    rfl
  · have hsame5 : m.stepAt 5 = m.stepAt 4 := stepAt_eq (by decide) (by decide) rfl
      (UInt8.le_iff_toNat_le.mpr (Nat.not_lt.mp htwelve)) (hcut _ (by decide))
    rw [if_neg htwelve, countFrom_skip ⟨by decide, hsame5⟩]
    rfl

theorem small_of_full (h : m.small 100 = true) : m.small 75 = true :=
  m.small_mono (by decide) (by decide) h

theorem small_of_quarter (h : m.small 75 = true) : m.small 50 = true :=
  m.small_mono (by decide) (by decide) h

/-- A rung fits when its own size does: no later rung is larger. -/
theorem fits_iff {rung : Nat} (hrung : rung < kRungTotal) :
    m.Fits rung ↔ m.small (rungAt rung).scalePct = false := by
  have hshrink : ∀ j : Fin kRungTotal, (rungAt j).scalePct.toNat ≤ 100 ∧ ∀ i : Fin kRungTotal,
      i ≤ j → (rungAt j).scalePct.toNat ≤ (rungAt i).scalePct.toNat := by decide
  constructor
  · intro hfits
    rw [← tooSmall_stepAt m hrung]
    exact hfits rung (Nat.le_refl rung)
  · intro hfits i hi
    have hlt : i < kRungTotal := Nat.lt_of_le_of_lt hi hrung
    rw [tooSmall_stepAt m hlt]
    by_contra hsmall
    have hlater := m.small_mono ((hshrink ⟨rung, hrung⟩).2 ⟨i, hlt⟩ hi) (hshrink ⟨i, hlt⟩).1
      (Bool.not_eq_false _ ▸ hsmall)
    rw [hfits] at hlater
    cases hlater

/-- The rungs counted above 30 frames a second are those that fit. -/
theorem lt_count_iff (hfps : 30 < m.maxFps.toNat) (hfull : m.small 100 = false) {rung : Nat}
    (hrung : rung < kRungTotal) : rung < m.count ↔ m.Fits rung := by
  rw [fits_iff hrung, count_high hfps, hfull]
  have hhalf := @small_of_quarter m
  change rung < 6 at hrung
  by_cases h75 : m.small 75 = true
  · have h50 := hhalf h75
    interval_cases rung <;> simp [rungAt, kRungs, hfull, h75, h50]
  · have h75' := Bool.eq_false_iff.mpr h75
    by_cases h50 : m.small 50 = true
    · interval_cases rung <;> simp [rungAt, kRungs, hfull, h75', h50]
    · have h50' := Bool.eq_false_iff.mpr h50
      interval_cases rung <;> simp [rungAt, kRungs, hfull, h75', h50']

theorem count_pos (m : Maxima) : 0 < m.count := by
  have hhigh := @count_high m
  have hmiddle := @count_middle m
  have hlow := @count_low m
  by_cases h30 : 30 < m.maxFps.toNat
  · rw [hhigh h30]
    split_ifs <;> decide
  by_cases h20 : 20 < m.maxFps.toNat
  · rw [hmiddle h20 (Nat.not_lt.mp h30)]
    split_ifs <;> decide
  · rw [hlow (Nat.not_lt.mp h20)]
    split_ifs <;> decide

theorem count_le (hfps : 30 < m.maxFps.toNat) : m.count ≤ kRungTotal := by
  rw [count_high hfps]
  split_ifs <;> decide

end Count

end Maxima

/-! ## What is never reached -/

/-- A ladder as it is built. -/
def fresh (m : Maxima) : QualityLadder := { max := m, count := m.count, step := m.stepAt 0 }

theorem onRung_fresh (m : Maxima) : OnRung m (fresh m) := ⟨rfl, rfl, m.count_pos, rfl⟩

section Runs

variable {m : Maxima}

/-- When the rungs counted are different steps, exactly the changes are reported. -/
theorem reportsChanges_of_injective
    (hinj : ∀ i j, i < m.count → j < m.count → m.stepAt i = m.stepAt j → i = j) :
    ReportsChanges (fresh m) := by
  intro calls bitrateBps nowUs
  have hon := (onRung_fresh m).run calls
  generalize (qualityLadder.run (fresh m) calls).1 = s at hon ⊢
  have hafter := hon.update bitrateBps nowUs
  have hcall := update_as s bitrateBps nowUs
  dsimp only
  generalize s.update bitrateBps nowUs = r at hcall hafter ⊢
  have hmoved : s.rung ≠ r.1.rung → r.1.current ≠ s.current := by
    intro hne heq
    apply hne
    apply hinj _ _ (hon.count_eq ▸ hon.rung_lt) (hafter.count_eq ▸ hafter.rung_lt)
    rw [← hon.step_eq, ← hafter.step_eq]
    exact heq.symm
  cases hcall with
  | drops want hwant hdown => exact ⟨fun _ => hmoved (Nat.ne_of_lt hdown), fun _ => rfl⟩
  | rests => exact ⟨fun h => (Bool.false_ne_true h).elim, fun h => absurd rfl h⟩
  | starts => exact ⟨fun h => (Bool.false_ne_true h).elim, fun h => absurd rfl h⟩
  | waits => exact ⟨fun h => (Bool.false_ne_true h).elim, fun h => absurd rfl h⟩
  | climbs next hnext =>
    have hne : s.rung ≠ next := by omega
    exact ⟨fun _ => hmoved hne, fun _ => rfl⟩

/-- What is reached is the step of a rung below the count. -/
theorem UsesRungs.covered (h : UsesRungs (fresh m)) {rung : Nat} (hfits : m.Fits rung) :
    ∃ i < m.count, m.stepAt i = m.stepAt rung := by
  rcases h rung hfits with ⟨calls, hreached⟩
  have hon := (onRung_fresh m).run calls
  refine ⟨_, hon.count_eq ▸ hon.rung_lt, ?_⟩
  rw [← hon.step_eq]
  exact hreached

/-- A rung that cannot be entered is not stood on. -/
theorem never_enters (hfps : 30 < m.maxFps.toNat) (hfull : m.small 100 = false) {rung : Nat}
    (hpos : 0 < rung) (hno : ¬ m.Enterable rung) (calls : List LadderCall) :
    (qualityLadder.run (fresh m) calls).1.rung ≠ rung := by
  have hrun := Machine.run_invariant' (m := qualityLadder)
    (fun (s : QualityLadder) _ => OnRung m s ∧ s.rung ≠ rung)
    ⟨onRung_fresh m, Nat.ne_of_lt hpos⟩ ?_ calls
  · exact hrun.2
  intro s _ c ⟨hon, hne⟩
  refine ⟨hon.update c.bitrateBps c.nowUs, ?_⟩
  show (s.update c.bitrateBps c.nowUs).1.rung ≠ rung
  have hcall := update_as s c.bitrateBps c.nowUs
  generalize s.update c.bitrateBps c.nowUs = r at hcall ⊢
  cases hcall with
  | drops want hwant hdown =>
    intro heq
    have heq' : s.bestRungFor c.bitrateBps = rung := hwant.trans heq
    apply hno
    have hchosen := s.bestRungFor_cases c.bitrateBps
    rw [heq', hon.max_eq, hon.count_eq] at hchosen
    rcases hchosen with ⟨-, henough, hbefore⟩ | ⟨hlast, hnone⟩
    · left
      intro i hi
      exact UInt32.lt_of_le_of_lt henough (hbefore i hi)
    · -- the last rung, with nothing behind it to climb from
      right
      rw [if_neg]
      · intro i hi
        exact UInt32.lt_of_le_of_lt (UInt32.zero_le) (hnone i (by omega))
      · rintro ⟨hnext, hfits⟩
        have hlt := (Maxima.lt_count_iff hfps hfull hnext).mpr hfits
        omega
  | rests => exact hne
  | starts => exact hne
  | waits => exact hne
  | climbs next hnext hwant hneed =>
    intro heq
    have heq' : next = rung := heq
    apply hno
    right
    have hbehind : rung + 1 < m.count := by
      have hlt := hon.rung_lt
      rw [hon.count_eq] at hlt
      omega
    have htotal : rung + 1 < kRungTotal := Nat.lt_of_lt_of_le hbehind (Maxima.count_le hfps)
    rw [if_pos ⟨htotal, (Maxima.lt_count_iff hfps hfull htotal).mp hbehind⟩]
    have hle := UInt64.le_iff_toNat_le.mp hneed
    rw [toNat_need, UInt32.toNat_toUInt64, hon.max_eq, heq'] at hle
    exact Nat.lt_of_le_of_lt hle c.bitrateBps.toNat_lt

/-! ## What is reached -/

/-- The bitrate is enough for the rung and for none before it. -/
theorem bestRungFor_eq {s : QualityLadder} {bitrateBps : UInt32} {rung : Nat} (hrung : rung < s.count)
    (henough : s.max.requiredBps rung ≤ bitrateBps)
    (hbefore : ∀ i < rung, bitrateBps < s.max.requiredBps i) : s.bestRungFor bitrateBps = rung := by
  apply Nat.le_antisymm (bestRungFor_le hrung henough)
  by_contra hlt
  rcases s.bestRungFor_cases bitrateBps with ⟨-, hle, -⟩ | ⟨-, hnone⟩
  · exact absurd (hbefore _ (Nat.not_le.mp hlt)) (UInt32.not_lt.mpr hle)
  · exact absurd (hnone rung hrung) (UInt32.not_lt.mpr henough)

/-- The bitrate is enough for no rung before the last. -/
theorem bestRungFor_last {s : QualityLadder} {bitrateBps : UInt32} {rung : Nat}
    (hlast : rung + 1 = s.count) (hbefore : ∀ i < rung, bitrateBps < s.max.requiredBps i) :
    s.bestRungFor bitrateBps = rung := by
  rcases s.bestRungFor_cases bitrateBps with ⟨hlt, hle, -⟩ | ⟨heq, -⟩
  · by_contra hne
    exact absurd (hbefore _ (by omega)) (UInt32.not_lt.mpr hle)
  · omega

/-- One call drops a fresh ladder to the rung that is wanted. -/
theorem drops_once {rung : Nat} (hpos : 0 < rung) {bitrateBps : UInt32}
    (hwant : (fresh m).bestRungFor bitrateBps = rung) :
    ∃ calls, (qualityLadder.run (fresh m) calls).1.rung = rung ∧
      (qualityLadder.run (fresh m) calls).1.upSinceUs = 0 ∧
      (qualityLadder.run (fresh m) calls).1.lastChangeUs.toNat = 1 := by
  have hdown : (fresh m).rung < (fresh m).bestRungFor bitrateBps := by
    rw [hwant]
    exact hpos
  have hcall : (qualityLadder.run (fresh m) [⟨bitrateBps, 1⟩]).1 =
      { fresh m with
        rung := rung
        step := m.stepAt rung
        lastChangeUs := 1
        upSinceUs := 0 } := by
    show ((fresh m).update bitrateBps 1).1 = _
    unfold update
    dsimp only
    rw [if_pos hdown, hwant]
    rfl
  refine ⟨[⟨bitrateBps, 1⟩], ?_, ?_, ?_⟩
  all_goals rw [hcall]
  rfl

theorem dwell_le (a b : Step) : (dwell a b).toNat ≤ 15000000 := by
  unfold dwell
  dsimp only
  split_ifs <;> decide

/-- Two calls with headroom, far enough apart, climb one rung. -/
theorem climbs_once {s : QualityLadder} (hon : OnRung m s) {rung : Nat} (hrung : s.rung = rung + 1)
    (hup : s.upSinceUs = 0) (hneed : (m.requiredBps rung).toNat * 120 / 100 < 2 ^ 32)
    (hlate : s.lastChangeUs.toNat + 15000001 < 2 ^ 64) :
    ∃ calls, (qualityLadder.run s calls).1.rung = rung ∧
      (qualityLadder.run s calls).1.upSinceUs = 0 ∧
      (qualityLadder.run s calls).1.lastChangeUs.toNat = s.lastChangeUs.toNat + 15000001 := by
  have hlt : rung < s.count := by
    have hlt := hon.rung_lt
    omega
  generalize hb : UInt32.ofNat ((m.requiredBps rung).toNat * 120 / 100) = b
  have hbNat : b.toNat = (m.requiredBps rung).toNat * 120 / 100 := by
    rw [← hb, UInt32.toNat_ofNat', Nat.mod_eq_of_lt hneed]
  have henough : s.max.requiredBps rung ≤ b := by
    rw [hon.max_eq, UInt32.le_iff_toNat_le, hbNat]
    omega
  have hstay : ¬ s.rung < s.bestRungFor b := by
    have hbest := bestRungFor_le hlt henough
    omega
  have htop : ¬ s.rung = 0 := by omega
  have hback : s.rung - 1 = rung := by omega
  have hheadroom : ¬ b.toUInt64 < need s.max rung := by
    rw [UInt64.not_lt, UInt64.le_iff_toNat_le, toNat_need, UInt32.toNat_toUInt64, hbNat, hon.max_eq]
  -- the first call starts the wait
  generalize ht₁ : s.lastChangeUs + 1 = t₁
  have ht₁Nat : t₁.toNat = s.lastChangeUs.toNat + 1 := by
    rw [← ht₁, UInt64.toNat_add]
    show (s.lastChangeUs.toNat + 1) % 2 ^ 64 = _
    omega
  have hfirst : s.update b t₁ = ({ s with upSinceUs := t₁ }, false) := by
    unfold update
    dsimp only
    rw [if_neg hstay, if_neg htop, hback, if_neg hheadroom, if_pos hup]
  -- the second one ends it
  generalize ht₂ : s.lastChangeUs + 15000001 = t₂
  have ht₂Nat : t₂.toNat = s.lastChangeUs.toNat + 15000001 := by
    rw [← ht₂, UInt64.toNat_add]
    show (s.lastChangeUs.toNat + 15000001) % 2 ^ 64 = _
    omega
  have hstarted : ¬ t₁ = 0 := by
    intro hzero
    rw [hzero] at ht₁Nat
    change 0 = s.lastChangeUs.toNat + 1 at ht₁Nat
    omega
  have hwait : (t₂ - t₁).toNat = 15000000 := by
    rw [UInt64.toNat_sub_of_le _ _ (UInt64.le_iff_toNat_le.mpr (by omega))]
    omega
  have hwait' : (t₂ - s.lastChangeUs).toNat = 15000001 := by
    rw [UInt64.toNat_sub_of_le _ _ (UInt64.le_iff_toNat_le.mpr (by omega))]
    omega
  have hdwell := dwell_le s.step (s.max.stepAt rung)
  have hsecond : ({ s with upSinceUs := t₁ } : QualityLadder).update b t₂ =
      ({ s with rung := rung, step := s.max.stepAt rung, lastChangeUs := t₂, upSinceUs := 0 },
        true) := by
    unfold update
    dsimp only
    have hstay' : ¬ s.rung < ({ s with upSinceUs := t₁ } : QualityLadder).bestRungFor b := hstay
    rw [if_neg hstay', if_neg htop, hback, if_neg hheadroom, if_neg hstarted, if_neg, if_neg]
    · rw [UInt64.not_lt, UInt64.le_iff_toNat_le]
      omega
    · rw [UInt64.not_lt, UInt64.le_iff_toNat_le]
      omega
  have hrun : (qualityLadder.run s [⟨b, t₁⟩, ⟨b, t₂⟩]).1 =
      { s with rung := rung, step := s.max.stepAt rung, lastChangeUs := t₂, upSinceUs := 0 } := by
    show ((s.update b t₁).1.update b t₂).1 = _
    rw [hfirst, hsecond]
  refine ⟨[⟨b, t₁⟩, ⟨b, t₂⟩], ?_, ?_, ?_⟩
  all_goals rw [hrun]
  exact ht₂Nat

/-- Every rung that is counted is entered, the last ones first. -/
theorem enters (hfps : 30 < m.maxFps.toNat) (hfull : m.small 100 = false)
    (hall : ∀ rung, 0 < rung → rung < kRungTotal → m.Fits rung → m.Enterable rung) {k rung : Nat}
    (hk : rung + k + 1 = m.count) (hpos : 0 < rung) :
    ∃ calls, (qualityLadder.run (fresh m) calls).1.rung = rung ∧
      (qualityLadder.run (fresh m) calls).1.upSinceUs = 0 ∧
      (qualityLadder.run (fresh m) calls).1.lastChangeUs.toNat ≤ 1 + k * 15000001 := by
  have hlt : rung < m.count := by omega
  have htotal : rung < kRungTotal := Nat.lt_of_lt_of_le hlt (Maxima.count_le hfps)
  have hsmall := Maxima.count_le hfps
  have henter := hall rung hpos htotal ((Maxima.lt_count_iff hfps hfull htotal).mp hlt)
  have hdropped : ∀ {b : UInt32}, (fresh m).bestRungFor b = rung →
      ∃ calls, (qualityLadder.run (fresh m) calls).1.rung = rung ∧
        (qualityLadder.run (fresh m) calls).1.upSinceUs = 0 ∧
        (qualityLadder.run (fresh m) calls).1.lastChangeUs.toNat ≤ 1 + k * 15000001 := by
    intro b hwant
    rcases drops_once hpos hwant with ⟨calls, hrung, hup, hlast⟩
    exact ⟨calls, hrung, hup, by omega⟩
  rcases henter with hdirect | hother
  · exact hdropped (bestRungFor_eq (s := fresh m) hlt (UInt32.le_refl _) hdirect)
  by_cases hnext : rung + 1 < kRungTotal ∧ m.Fits (rung + 1)
  · -- climbed to from the next rung
    rw [if_pos hnext] at hother
    have hbehind := (Maxima.lt_count_iff hfps hfull hnext.1).mpr hnext.2
    cases k with
    | zero => omega
    | succ k =>
      have hreach : rung + 1 + k + 1 = m.count := by omega
      rcases enters hfps hfull hall hreach (by omega) with ⟨calls, hrung, hup, hlast⟩
      have hon := (onRung_fresh m).run calls
      have hk' : k < 6 := by
        change m.count ≤ 6 at hsmall
        omega
      rcases climbs_once hon hrung hup hother (by omega) with ⟨more, hrung', hup', hlast'⟩
      refine ⟨calls ++ more, ?_⟩
      rw [Machine.run_append]
      exact ⟨hrung', hup', by dsimp only; omega⟩
  · rw [if_neg hnext] at hother
    have hlast : rung + 1 = m.count := by
      by_contra hne
      have hmore : rung + 1 < m.count := by omega
      have htotal' : rung + 1 < kRungTotal := Nat.lt_of_lt_of_le hmore hsmall
      exact hnext ⟨htotal', (Maxima.lt_count_iff hfps hfull htotal').mp hmore⟩
    exact hdropped (bestRungFor_last (s := fresh m) hlast hother)
termination_by k

/-- Beyond the table the last rung counts. -/
theorem stepAt_clamped (m : Maxima) (rung : Nat) : m.stepAt rung = m.stepAt (min rung 5) := by
  by_cases h : rung < 6
  · rw [Nat.min_eq_left (Nat.le_of_lt_succ h)]
  · rw [Nat.min_eq_right (by omega)]
    unfold Maxima.stepAt
    rw [if_pos (show kRungTotal ≤ rung from Nat.not_lt.mp h)]
    rfl

theorem usesRungs_of_enterable (hfps : 30 < m.maxFps.toNat) (hfull : m.small 100 = false)
    (hall : ∀ rung, 0 < rung → rung < kRungTotal → m.Fits rung → m.Enterable rung) :
    UsesRungs (fresh m) := by
  intro rung hfits
  have htable : min rung 5 < kRungTotal := Nat.lt_of_le_of_lt (Nat.min_le_right rung 5) (by decide)
  have hcounted : min rung 5 < m.count := by
    rw [Maxima.lt_count_iff hfps hfull htable]
    intro i hi
    exact hfits i (Nat.le_trans hi (Nat.min_le_left rung 5))
  show ∃ calls, _ = m.stepAt rung
  rw [stepAt_clamped]
  rcases Nat.eq_zero_or_pos (min rung 5) with hzero | hpos
  · rw [hzero]
    exact ⟨[], rfl⟩
  · rcases enters hfps hfull hall (k := m.count - 1 - min rung 5) (by omega) hpos with
      ⟨calls, hrung, -⟩
    refine ⟨calls, ?_⟩
    have hon := (onRung_fresh m).run calls
    rw [← hrung]
    exact hon.step_eq

/-! ## Low frame rates -/

theorem not_covered (rung : Nat) (hrung : rung < kRungTotal)
    (hsize : m.small (Maxima.rungAt rung).scalePct = false)
    (hne : ∀ i < m.count, m.stepAt rung ≠ m.stepAt i) : ¬ UsesRungs (fresh m) := by
  intro huses
  rcases huses.covered ((Maxima.fits_iff hrung).mpr hsize) with ⟨i, hi, heq⟩
  exact hne i hi heq.symm

/-- One rung too few is counted, so the last step is not reached. -/
theorem not_usesRungs_middle (hlow : 20 < m.maxFps.toNat) (hfps : m.maxFps.toNat ≤ 30)
    (hfull : m.small 100 = false) : ¬ UsesRungs (fresh m) := by
  have hcount := Maxima.count_middle hlow hfps
  rw [hfull] at hcount
  by_cases hquarter : m.small 75 = true
  · rw [hquarter] at hcount
    apply not_covered 2 (by decide) hfull
    intro i hi
    rw [hcount] at hi
    change i < 2 at hi
    interval_cases i <;> exact Maxima.stepAt_ne_of_rate (by decide) (by decide) (by decide) hlow
  have hquarter' := Bool.eq_false_iff.mpr hquarter
  rw [hquarter'] at hcount
  by_cases hhalf : m.small 50 = true
  · rw [hhalf] at hcount
    apply not_covered 3 (by decide) hquarter'
    intro i hi
    rw [hcount] at hi
    change i < 3 at hi
    interval_cases i <;> exact Maxima.stepAt_ne_of_scale (by decide) (by decide) (by decide)
  · have hhalf' := Bool.eq_false_iff.mpr hhalf
    rw [hhalf'] at hcount
    apply not_covered 5 (by decide) hhalf'
    intro i hi
    rw [hcount] at hi
    change i < 5 at hi
    have htwelve : 12 < m.maxFps.toNat := Nat.lt_trans (by decide) hlow
    interval_cases i <;> exact Maxima.stepAt_ne_of_rate (by decide) (by decide) (by decide) htwelve

/-- Two rungs too few are counted. -/
theorem not_usesRungs_low (hfps : m.maxFps.toNat ≤ 20) (hquarter : m.small 75 = false) :
    ¬ UsesRungs (fresh m) := by
  have hcount := Maxima.count_low hfps
  rw [hquarter] at hcount
  by_cases hhalf : m.small 50 = true
  · rw [hhalf] at hcount
    apply not_covered 3 (by decide) hquarter
    intro i hi
    rw [hcount] at hi
    change i < 2 at hi
    interval_cases i <;> exact Maxima.stepAt_ne_of_scale (by decide) (by decide) (by decide)
  have hhalf' := Bool.eq_false_iff.mpr hhalf
  rw [hhalf'] at hcount
  by_cases htwelve : 12 < m.maxFps.toNat
  · rw [if_pos htwelve] at hcount
    apply not_covered 4 (by decide) hhalf'
    intro i hi
    rw [hcount] at hi
    change i < 4 at hi
    interval_cases i <;> exact Maxima.stepAt_ne_of_scale (by decide) (by decide) (by decide)
  · rw [if_neg htwelve] at hcount
    apply not_covered 3 (by decide) hquarter
    intro i hi
    rw [hcount] at hi
    change i < 3 at hi
    interval_cases i <;> exact Maxima.stepAt_ne_of_scale (by decide) (by decide) (by decide)

/-- A ladder with one rung never moves. -/
theorem reportsChanges_of_one (h : m.count = 1) : ReportsChanges (fresh m) := by
  apply reportsChanges_of_injective
  intro i j hi hj _
  omega

/-- At the full size nothing fits. -/
theorem usesRungs_of_small (hfull : m.small 100 = true) : UsesRungs (fresh m) := by
  intro rung hfits
  have hzero : (m.stepAt 0).tooSmall = false := hfits 0 (Nat.zero_le rung)
  rw [Maxima.tooSmall_stepAt m (by decide)] at hzero
  exact absurd hfull (Bool.eq_false_iff.mp hzero)

theorem count_of_small (hfull : m.small 100 = true) : m.count = 1 := by
  have hquarter := Maxima.small_of_full hfull
  by_cases h30 : 30 < m.maxFps.toNat
  · rw [Maxima.count_high h30, hfull]
    rfl
  by_cases h20 : 20 < m.maxFps.toNat
  · rw [Maxima.count_middle h20 (Nat.not_lt.mp h30), hfull]
    rfl
  · rw [Maxima.count_low (Nat.not_lt.mp h20), hquarter]
    rfl

/-- Where only the full size fits, and at one rate. -/
theorem usesRungs_of_quarter (hfps : m.maxFps.toNat ≤ 20) (hquarter : m.small 75 = true) :
    UsesRungs (fresh m) := by
  intro rung hfits
  have hbefore : rung < 3 := by
    by_contra hlate
    have hthree : (m.stepAt 3).tooSmall = false := hfits 3 (Nat.not_lt.mp hlate)
    rw [Maxima.tooSmall_stepAt m (by decide)] at hthree
    exact absurd hquarter (Bool.eq_false_iff.mp hthree)
  have hcut : ∀ rate : UInt8, 20 ≤ rate.toNat → m.maxFps ≤ rate :=
    fun rate hrate => UInt8.le_iff_toNat_le.mpr (Nat.le_trans hfps hrate)
  refine ⟨[], ?_⟩
  show m.stepAt 0 = m.stepAt rung
  interval_cases rung <;>
    exact Maxima.stepAt_eq (by decide) (by decide) rfl (hcut _ (by decide)) (hcut _ (by decide))

end Runs

/-- When a ladder reports only real changes and uses all its rungs: it never moves because the size
or the only other scale is too small, or the frame rate keeps the rungs apart and all of them can be
entered. -/
theorem ladder_iff (maxW maxH : UInt16) (maxFps : UInt8) :
    ReportsChanges (make maxW maxH maxFps) ∧ UsesRungs (make maxW maxH maxFps) ↔
      (maxW < 160 ∨ maxH < 64) ∨
        ((maxima maxW maxH maxFps).maxFps ≤ 20 ∧ (maxW < 214 ∨ maxH < 86)) ∨
        (30 < (maxima maxW maxH maxFps).maxFps ∧
          ∀ rung, 0 < rung → rung < kRungTotal →
            (maxima maxW maxH maxFps).Fits rung → (maxima maxW maxH maxFps).Enterable rung) := by
  let m := maxima maxW maxH maxFps
  change _ ↔ (maxW < 160 ∨ maxH < 64) ∨ (m.maxFps ≤ 20 ∧ (maxW < 214 ∨ maxH < 86)) ∨
    (30 < m.maxFps ∧ ∀ rung, 0 < rung → rung < kRungTotal → m.Fits rung → m.Enterable rung)
  have hmake : make maxW maxH maxFps = fresh m := rfl
  have hfull := m.small_full_iff
  have hquarter := m.small_quarter_iff
  change _ ↔ maxW < 160 ∨ maxH < 64 at hfull
  change _ ↔ maxW < 214 ∨ maxH < 86 at hquarter
  rw [hmake, ← hfull, ← hquarter, UInt8.le_iff_toNat_le, UInt8.lt_iff_toNat_lt]
  change _ ↔ _ ∨ m.maxFps.toNat ≤ 20 ∧ _ ∨ 30 < m.maxFps.toNat ∧ _
  constructor
  · rintro ⟨-, huses⟩
    by_cases hsmall : m.small 100 = true
    · exact .inl hsmall
    have hfits := Bool.eq_false_iff.mpr hsmall
    by_cases h30 : 30 < m.maxFps.toNat
    · refine .inr (.inr ⟨h30, ?_⟩)
      intro rung hpos hrung hfitsRung
      by_contra hno
      rcases huses rung hfitsRung with ⟨calls, hreached⟩
      have hon := (onRung_fresh m).run calls
      have hlt : (qualityLadder.run (fresh m) calls).1.rung < kRungTotal :=
        Nat.lt_of_lt_of_le (hon.count_eq ▸ hon.rung_lt) (Maxima.count_le h30)
      apply never_enters h30 hfits hpos hno calls
      apply Maxima.stepAt_injective h30 hlt hrung
      rw [← hon.step_eq]
      exact hreached
    by_cases h20 : 20 < m.maxFps.toNat
    · exact absurd huses (not_usesRungs_middle h20 (Nat.not_lt.mp h30) hfits)
    · refine .inr (.inl ⟨Nat.not_lt.mp h20, ?_⟩)
      by_contra hlarge
      exact not_usesRungs_low (Nat.not_lt.mp h20) (Bool.eq_false_iff.mpr hlarge) huses
  · rintro (hsmall | ⟨h20, hsmall⟩ | ⟨h30, hall⟩)
    · exact ⟨reportsChanges_of_one (count_of_small hsmall), usesRungs_of_small hsmall⟩
    · refine ⟨reportsChanges_of_one ?_, usesRungs_of_quarter h20 hsmall⟩
      rw [Maxima.count_low h20, hsmall]
      rfl
    · by_cases hsmall : m.small 100 = true
      · exact ⟨reportsChanges_of_one (count_of_small hsmall), usesRungs_of_small hsmall⟩
      constructor
      · apply reportsChanges_of_injective
        intro i j hi hj heq
        have htotal := Maxima.count_le h30
        exact Maxima.stepAt_injective h30 (Nat.lt_of_lt_of_le hi htotal)
          (Nat.lt_of_lt_of_le hj htotal) heq
      · exact usesRungs_of_enterable h30 (Bool.eq_false_iff.mpr hsmall) hall

/-- At 30 frames a second a climb from the second rung to the first returns true and changes
nothing. -/
theorem ladder_thirty :
    ¬ (ReportsChanges (make 1920 1080 30) ∧ UsesRungs (make 1920 1080 30)) := by
  rintro ⟨hreports, -⟩
  have hclimb := hreports [⟨4000000, 1⟩, ⟨50000000, 2⟩, ⟨50000000, 5000002⟩, ⟨50000000, 5000003⟩]
    50000000 10000003
  revert hclimb
  decide +kernel

end QualityLadder

end Deskhub
