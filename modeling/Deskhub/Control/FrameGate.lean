import Deskhub.Lib.Machine
import Mathlib.Algebra.Group.Nat.Defs
import Mathlib.Data.List.Basic
import Mathlib.Data.List.Sublists

/-!
# The frame gate

`FrameGate`: frames are let through at a fixed rate. When the next frame is due carries over from
frame to frame, so it never lags behind the last frame by more than an interval and the tolerance,
and each frame let through moves it on by an interval at least.
-/

universe u

namespace Deskhub

structure FrameGate where
  lastUs : UInt64 := 0
  nextDueUs : UInt64 := 0
deriving DecidableEq, Repr

namespace FrameGate

def kJitterToleranceUs : UInt64 := 500

def reset : FrameGate := {}

/-- The gap between frames at a rate. -/
def minGapUs (fps : UInt32) : UInt64 := 1000000 / fps.toUInt64

/-- `Admit`. -/
def admitFrame (s : FrameGate) (fps : UInt32) (timestampUs : UInt64) : FrameGate × Bool :=
  if fps = 0 then (s, true)
  else
    let stamped := s.lastUs
    let haveReference := stamped ≠ 0 ∧ stamped - 1 < timestampUs
    let through (dueUs : UInt64) : FrameGate × Bool :=
      ({ lastUs := timestampUs + 1, nextDueUs := dueUs }, true)
    if haveReference then
      let dueUs := s.nextDueUs
      if timestampUs + kJitterToleranceUs < dueUs then (s, false)
      else
        let carried := dueUs + minGapUs fps
        through (if carried < timestampUs then timestampUs + minGapUs fps else carried)
    else through (timestampUs + minGapUs fps)

end FrameGate

/-- A gate at a fixed rate, with the timestamps it lets through. -/
def frameGate (fps : UInt32) : Machine FrameGate UInt64 UInt64 where
  step s timestampUs :=
    let r := s.admitFrame fps timestampUs
    (r.1, if r.2 then [timestampUs] else [])

namespace FrameGate

/-- The interval of a rate, as a number. -/
def interval (fps : UInt32) : Nat := 1000000 / fps.toNat

theorem toNat_minGapUs (fps : UInt32) : (minGapUs fps).toNat = interval fps := by
  unfold minGapUs interval
  rw [UInt64.toNat_div, UInt32.toNat_toUInt64]
  rfl

/-- The clock has room for the tolerance and an interval after each timestamp. -/
def HasRoom (fps : UInt32) (times : List UInt64) : Prop :=
  ∀ t ∈ times, t.toNat + interval fps + kJitterToleranceUs.toNat < 2 ^ 64

/-! ## What the due time stands for -/

/-- A sublist of a list and a further element leaves the element out or ends with it. -/
theorem sublist_concat_cases {α : Type u} {as past : List α} {a : α}
    (h : as.Sublist (past ++ [a])) :
    as.Sublist past ∨ ∃ front, as = front ++ [a] ∧ front.Sublist past := by
  rcases List.sublist_append_iff.mp h with ⟨front, back, rfl, hfront, hback⟩
  rcases List.sublist_singleton.mp hback with rfl | rfl
  · rw [List.append_nil]
    exact .inl hfront
  · exact .inr ⟨front, rfl, hfront⟩

/-- The gate after it let the frames `past` through. -/
structure Due (fps : UInt32) (s : FrameGate) (past : List UInt64) : Prop where
  fresh : past = [] → s.lastUs = 0
  stamped : ∀ a, past.getLast? = some a → s.lastUs.toNat = a.toNat + 1 ∧
    s.nextDueUs.toNat ≤ a.toNat + interval fps + kJitterToleranceUs.toNat
  carried : ∀ x later, (x :: later).Sublist past →
    x.toNat + later.length * interval fps ≤ s.nextDueUs.toNat
  spaced : ∀ x mid y, (x :: (mid ++ [y])).Sublist past →
    x.toNat + mid.length * interval fps ≤ y.toNat + kJitterToleranceUs.toNat

theorem Due.init (fps : UInt32) : Due fps {} [] := by
  refine ⟨fun _ => rfl, ?_, ?_, ?_⟩
  · intro a hlast
    cases hlast
  · intro x later hsub
    exact absurd (List.eq_nil_of_sublist_nil hsub) (List.cons_ne_nil _ _)
  · intro x mid y hsub
    exact absurd (List.eq_nil_of_sublist_nil hsub) (List.cons_ne_nil _ _)

section Step

variable {fps : UInt32} {s : FrameGate} {past : List UInt64} {t : UInt64}

/-- What `Admit` does with a frame after those of the past: it turns it away before it is due, or
lets it through and moves the due time on. -/
theorem Due.admitFrame_cases (h : Due fps s past) (hfps : fps ≠ 0)
    (hroom : t.toNat + interval fps + kJitterToleranceUs.toNat < 2 ^ 64)
    (hlate : ∀ a ∈ past, a < t) :
    (s.admitFrame fps t = (s, false) ∧ past ≠ [] ∧
        t.toNat + kJitterToleranceUs.toNat < s.nextDueUs.toNat) ∨
      ∃ due : UInt64, s.admitFrame fps t = (⟨t + 1, due⟩, true) ∧
        (past ≠ [] → s.nextDueUs.toNat ≤ t.toNat + kJitterToleranceUs.toNat ∧
          s.nextDueUs.toNat + interval fps ≤ due.toNat) ∧
        t.toNat ≤ due.toNat ∧
        due.toNat ≤ t.toNat + interval fps + kJitterToleranceUs.toNat := by
  have hgap := toNat_minGapUs fps
  have htolerance : kJitterToleranceUs.toNat = 500 := rfl
  have hearly : (t + kJitterToleranceUs).toNat = t.toNat + kJitterToleranceUs.toNat := by
    rw [UInt64.toNat_add, Nat.mod_eq_of_lt (by omega)]
  have hnext : (t + minGapUs fps).toNat = t.toNat + interval fps := by
    rw [UInt64.toNat_add, hgap, Nat.mod_eq_of_lt (by omega)]
  unfold admitFrame
  rw [if_neg hfps]
  dsimp only
  cases hlast : past.getLast? with
  | none =>
    have hnil := List.getLast?_eq_none_iff.mp hlast
    rw [if_neg (fun href => href.1 (h.fresh hnil))]
    refine .inr ⟨t + minGapUs fps, rfl, fun hne => absurd hnil hne, ?_, ?_⟩
    · omega
    · omega
  | some a =>
    have hne : past ≠ [] := by
      rintro rfl
      cases hlast
    rcases h.stamped a hlast with ⟨hstamped, hdue⟩
    have hafter := UInt64.lt_iff_toNat_lt.mp (hlate a (List.mem_of_getLast? hlast))
    have hreference : s.lastUs ≠ 0 ∧ s.lastUs - 1 < t := by
      have hone : (1 : UInt64).toNat = 1 := rfl
      constructor
      · intro hzero
        rw [hzero] at hstamped
        change 0 = a.toNat + 1 at hstamped
        omega
      · rw [UInt64.lt_iff_toNat_lt,
          UInt64.toNat_sub_of_le _ _ (UInt64.le_iff_toNat_le.mpr (by omega)), hstamped, hone]
        omega
    rw [if_pos hreference]
    by_cases hwait : t + kJitterToleranceUs < s.nextDueUs
    · rw [if_pos hwait]
      have hwait' := UInt64.lt_iff_toNat_lt.mp hwait
      rw [hearly] at hwait'
      exact .inl ⟨rfl, hne, hwait'⟩
    rw [if_neg hwait]
    have hdue' := UInt64.le_iff_toNat_le.mp (UInt64.not_lt.mp hwait)
    rw [hearly] at hdue'
    have hcarried : (s.nextDueUs + minGapUs fps).toNat = s.nextDueUs.toNat + interval fps := by
      rw [UInt64.toNat_add, hgap, Nat.mod_eq_of_lt (by omega)]
    refine .inr ⟨_, rfl, fun _ => ⟨hdue', ?_⟩, ?_, ?_⟩
    all_goals
      by_cases hbehind : s.nextDueUs + minGapUs fps < t
      · rw [if_pos hbehind]
        have hbehind' := UInt64.lt_iff_toNat_lt.mp hbehind
        omega
      · rw [if_neg hbehind]
        have hbehind' := UInt64.le_iff_toNat_le.mp (UInt64.not_lt.mp hbehind)
        omega

/-- The step lemma. -/
theorem Due.step (h : Due fps s past) (hfps : fps ≠ 0)
    (hroom : t.toNat + interval fps + kJitterToleranceUs.toNat < 2 ^ 64)
    (hlate : ∀ a ∈ past, a < t) :
    Due fps ((frameGate fps).step s t).1 (past ++ ((frameGate fps).step s t).2) := by
  show Due fps (s.admitFrame fps t).1 (past ++ if (s.admitFrame fps t).2 then [t] else [])
  rcases h.admitFrame_cases hfps hroom hlate with ⟨hturned, -⟩ | ⟨due, hthrough, hmoved, hle, hmost⟩
  · rw [hturned]
    show Due fps s (past ++ [])
    rw [List.append_nil]
    exact h
  rw [hthrough]
  show Due fps ⟨t + 1, due⟩ (past ++ [t])
  have hstamp : (t + 1).toNat = t.toNat + 1 := by
    rw [UInt64.toNat_add]
    show (t.toNat + 1) % 2 ^ 64 = _
    have htolerance : kJitterToleranceUs.toNat = 500 := rfl
    omega
  -- a frame of the past and how many were let through since
  have hpast : ∀ x later, (x :: later).Sublist past →
      x.toNat + later.length * interval fps ≤ t.toNat + kJitterToleranceUs.toNat ∧
        x.toNat + (later.length + 1) * interval fps ≤ due.toNat := by
    intro x later hsub
    have hne : past ≠ [] := by
      rintro rfl
      exact absurd (List.eq_nil_of_sublist_nil hsub) (List.cons_ne_nil _ _)
    have hold := h.carried x later hsub
    rcases hmoved hne with ⟨hdue, hnext⟩
    rw [Nat.succ_mul]
    omega
  refine ⟨?_, ?_, ?_, ?_⟩
  · intro hnil
    exact absurd hnil (List.append_ne_nil_of_right_ne_nil _ (List.cons_ne_nil _ _))
  · intro a hlast
    rw [List.getLast?_concat] at hlast
    rw [← Option.some.inj hlast]
    exact ⟨hstamp, hmost⟩
  · intro x later hsub
    rcases sublist_concat_cases hsub with hsub | ⟨front, hsplit, hfront⟩
    · have hold := (hpast x later hsub).2
      rw [Nat.succ_mul] at hold
      show x.toNat + later.length * interval fps ≤ due.toNat
      omega
    cases front with
    | nil =>
      rcases List.cons.inj hsplit with ⟨rfl, rfl⟩
      simpa using hle
    | cons x' front =>
      rcases List.cons.inj hsplit with ⟨rfl, rfl⟩
      have hold := (hpast x front hfront).2
      show x.toNat + (front ++ [t]).length * interval fps ≤ due.toNat
      rw [List.length_append]
      exact hold
  · intro x mid y hsub
    rcases sublist_concat_cases hsub with hsub | ⟨front, hsplit, hfront⟩
    · exact h.spaced x mid y hsub
    rw [← List.cons_append] at hsplit
    rcases List.append_inj' hsplit rfl with ⟨rfl, hy⟩
    rw [(List.cons.inj hy).1]
    exact (hpast x mid hfront).1

end Step

/-! ## Runs -/

section Runs

variable {fps : UInt32} {times : List UInt64}

/-- The run lemma. -/
theorem due_run (hfps : fps ≠ 0) (htimes : times.Pairwise (· < ·)) (hroom : HasRoom fps times) :
    Due fps ((frameGate fps).run {} times).1 ((frameGate fps).run {} times).2 ∧
      ((frameGate fps).run {} times).2.Sublist times := by
  induction times using List.reverseRecOn with
  | nil => exact ⟨Due.init fps, List.Sublist.refl _⟩
  | append_singleton earlier t ih =>
    rcases List.pairwise_append.mp htimes with ⟨hearlier, -, hlate⟩
    rcases ih hearlier (fun a ha => hroom a (List.mem_append_left _ ha)) with ⟨hdue, hsub⟩
    rw [Machine.run_concat]
    constructor
    · refine hdue.step hfps (hroom t List.mem_concat_self) ?_
      intro a ha
      exact hlate a (hsub.subset ha) t List.mem_cons_self
    · refine hsub.append ?_
      show List.Sublist (if _ then [t] else []) [t]
      split
      · exact List.Sublist.refl _
      · exact List.nil_sublist _

/-- A frame that comes an interval after the last one let through is let through. -/
theorem admitFrame_of_gap (hfps : fps ≠ 0) {earlier later : List UInt64} {t a : UInt64}
    (htimes : (earlier ++ t :: later).Pairwise (· < ·)) (hroom : HasRoom fps (earlier ++ t :: later))
    (hlast : ((frameGate fps).run {} earlier).2.getLast? = some a)
    (hgap : a.toNat + interval fps ≤ t.toNat) :
    (((frameGate fps).run {} earlier).1.admitFrame fps t).2 = true := by
  rcases List.pairwise_append.mp htimes with ⟨hearlier, -, hlate⟩
  have hdue := due_run hfps hearlier (fun a ha => hroom a (List.mem_append_left _ ha))
  have hbefore : ∀ b ∈ ((frameGate fps).run {} earlier).2, b < t := by
    intro b hb
    exact hlate b (hdue.2.subset hb) t List.mem_cons_self
  rcases hdue.1.admitFrame_cases hfps (hroom t (by simp)) hbefore with
    ⟨-, -, hwait⟩ | ⟨due, hthrough, -⟩
  · have hmost := (hdue.1.stamped a hlast).2
    omega
  · rw [hthrough]

/-- Frames let through that are spaced so that each spans an interval but for a tolerance. -/
theorem length_le_of_span {lo span : Nat} (hinterval : 0 < interval fps) {past : List UInt64}
    (hspaced : ∀ x mid y, (x :: (mid ++ [y])).Sublist past →
      x.toNat + mid.length * interval fps ≤ y.toNat + kJitterToleranceUs.toNat)
    (hspan : ∀ t ∈ past, lo ≤ t.toNat ∧ t.toNat ≤ lo + span) :
    past.length ≤ (span + kJitterToleranceUs.toNat) / interval fps + 2 := by
  cases past with
  | nil => exact Nat.zero_le _
  | cons x rest =>
    rcases List.eq_nil_or_concat' rest with rfl | ⟨mid, y, rfl⟩
    · exact Nat.le_add_left_of_le (Nat.le_succ 1)
    · have hends := hspaced x mid y (List.Sublist.refl _)
      have hx := (hspan x List.mem_cons_self).1
      have hy := (hspan y (by simp)).2
      have hmid : mid.length ≤ (span + kJitterToleranceUs.toNat) / interval fps := by
        rw [Nat.le_div_iff_mul_le hinterval]
        omega
      simp only [List.length_cons, List.length_append, List.length_nil]
      omega

end Runs

end FrameGate

open FrameGate in
/-- The frame gate neither starves nor floods: while the clock has room, a frame that comes an
interval after the last one let through is let through, and among the frames within a span not many
more are let through than there are intervals in it. -/
theorem frameGate_fair (fps : UInt32) (times : List UInt64) (hfps : 1 ≤ fps.toNat)
    (hmost : fps.toNat ≤ 1000000) (htimes : times.Pairwise (· < ·)) (hroom : HasRoom fps times) :
    (∀ earlier t later a, times = earlier ++ t :: later →
        ((frameGate fps).run {} earlier).2.getLast? = some a →
        a.toNat + interval fps ≤ t.toNat →
        (((frameGate fps).run {} earlier).1.admitFrame fps t).2 = true) ∧
      ∀ lo span : Nat,
        (((frameGate fps).run {} times).2.filter
            (fun t => lo ≤ t.toNat ∧ t.toNat ≤ lo + span)).length ≤
          (span + kJitterToleranceUs.toNat) / interval fps + 2 := by
  have hfps' : fps ≠ 0 := by
    rintro rfl
    exact absurd hfps (by decide)
  constructor
  · rintro earlier t later a rfl hlast hgap
    exact admitFrame_of_gap hfps' htimes hroom hlast hgap
  · intro lo span
    apply length_le_of_span (Nat.div_pos hmost hfps)
    · intro x mid y hsub
      exact (due_run hfps' htimes hroom).1.spaced x mid y (hsub.trans List.filter_sublist)
    · intro t ht
      simpa using (List.mem_filter.mp ht).2

/-- Frames at 50 a second through a gate at 30. -/
theorem frameGate_fair_thirty :
    (((frameGate 30).run {} [20000, 40000, 60000, 80000]).2.filter
      (fun t => 0 ≤ t.toNat ∧ t.toNat ≤ 0 + 100000)).length ≤
        (100000 + FrameGate.kJitterToleranceUs.toNat) / FrameGate.interval 30 + 2 :=
  (frameGate_fair 30 [20000, 40000, 60000, 80000] (by decide) (by decide) (by decide)
    (by simp [FrameGate.HasRoom, FrameGate.interval, FrameGate.kJitterToleranceUs])).2 0 100000

/-- At the end of the clock the time a frame is compared at wraps round. -/
theorem frameGate_starves :
    ((frameGate 1000).run {} [18446744073709549616]).2 = [18446744073709549616] ∧
      18446744073709549616 + FrameGate.interval 1000 ≤ 18446744073709551216 ∧
      (((frameGate 1000).run {} [18446744073709549616]).1.admitFrame 1000
        18446744073709551216).2 = false := by
  refine ⟨by decide +kernel, by decide, by decide +kernel⟩

end Deskhub
