import Deskhub.Session.LinkPulse
import Mathlib.Order.Nat

/-!
# Only watched silence stalls a link

What a tick does to the time of the last pong, and what follows for runs: silence counts from the
last pong on, for at most one watch step between one tick and the next.
-/

namespace Deskhub

/-- The times that the calls of a run are given. -/
def pulseTimes (calls : List LinkPulseCall) : List UInt64 := calls.filterMap LinkPulseCall.time?

/-- The time watched after `sinceUs`: of each interval between ticks that ends then, at most one
watch step. -/
def watchedUs (sinceUs : UInt64) : List UInt64 → Nat
  | a :: b :: rest =>
      (if sinceUs < b then min (b.toNat - a.toNat) kLinkWatchStepUs.toNat else 0) +
        watchedUs sinceUs (b :: rest)
  | _ => 0

theorem watchedUs_concat {sinceUs last : UInt64} {ticks : List UInt64}
    (hlast : ticks.getLast? = some last) (nowUs : UInt64) :
    watchedUs sinceUs (ticks ++ [nowUs]) = watchedUs sinceUs ticks +
      if sinceUs < nowUs then min (nowUs.toNat - last.toNat) kLinkWatchStepUs.toNat else 0 := by
  induction ticks with
  | nil => cases hlast
  | cons a ticks ih =>
    cases ticks with
    | nil =>
      have ha : a = last := by simpa using hlast
      rw [ha]
      show _ + 0 = 0 + _
      rw [Nat.add_zero, Nat.zero_add]
    | cons b rest =>
      rw [List.getLast?_cons_cons] at hlast
      rw [List.cons_append, List.cons_append, watchedUs, watchedUs, ← List.cons_append, ih hlast,
        Nat.add_assoc]

namespace LinkPulse

/-- A tick remembers its time, and may move the time of the last pong by what was not watched. -/
theorem tick_spec (s : LinkPulse) (nowUs : UInt64) :
    (s.tick nowUs).lastTickUs = nowUs ∧
      (((s.tick nowUs).lastPongUs = s.lastPongUs ∧
          (s.lastTickUs = 0 ∨ nowUs ≤ s.lastTickUs ∨ s.lastPongUs = 0 ∨ nowUs ≤ s.lastPongUs ∨
            nowUs.toNat ≤ s.lastTickUs.toNat + kLinkWatchStepUs.toNat)) ∨
        (s.lastTickUs < nowUs ∧ s.lastPongUs < nowUs ∧
          s.lastTickUs.toNat + kLinkWatchStepUs.toNat < nowUs.toNat ∧
          (s.tick nowUs).lastPongUs.toNat =
            min nowUs.toNat (s.lastPongUs.toNat +
              (nowUs.toNat - s.lastTickUs.toNat - kLinkWatchStepUs.toNat)))) := by
  unfold tick
  dsimp only
  by_cases hfirst : s.lastTickUs = 0 ∨ nowUs ≤ s.lastTickUs
  · rw [if_pos hfirst]
    refine ⟨rfl, .inl ⟨rfl, ?_⟩⟩
    rcases hfirst with hzero | hback
    · exact .inl hzero
    · exact .inr (.inl hback)
  rw [if_neg hfirst]
  by_cases hpong : s.lastPongUs = 0 ∨ nowUs ≤ s.lastPongUs
  · rw [if_pos hpong]
    refine ⟨rfl, .inl ⟨rfl, ?_⟩⟩
    rcases hpong with hzero | hback
    · exact .inr (.inr (.inl hzero))
    · exact .inr (.inr (.inr (.inl hback)))
  rw [if_neg hpong]
  rw [not_or, UInt64.not_le] at hfirst hpong
  have hsince := UInt64.toNat_sub_of_le _ _ (UInt64.le_of_lt hfirst.2)
  have hsilent := UInt64.toNat_sub_of_le _ _ (UInt64.le_of_lt hpong.2)
  have hbefore := UInt64.lt_iff_toNat_lt.mp hfirst.2
  have hpast := UInt64.lt_iff_toNat_lt.mp hpong.2
  by_cases hstep : nowUs - s.lastTickUs ≤ kLinkWatchStepUs
  · rw [if_pos hstep]
    have hstep' := UInt64.le_iff_toNat_le.mp hstep
    exact ⟨rfl, .inl ⟨rfl, .inr (.inr (.inr (.inr (by omega))))⟩⟩
  rw [if_neg hstep]
  have hlong := UInt64.not_le.mp hstep
  have hlong' := UInt64.lt_iff_toNat_lt.mp hlong
  have hunwatched := UInt64.toNat_sub_of_le _ _ (UInt64.le_of_lt hlong)
  refine ⟨rfl, .inr ⟨hfirst.2, hpong.2, by omega, ?_⟩⟩
  dsimp only
  by_cases hall : nowUs - s.lastPongUs ≤ nowUs - s.lastTickUs - kLinkWatchStepUs
  · rw [if_pos hall]
    have hall' := UInt64.le_iff_toNat_le.mp hall
    omega
  · rw [if_neg hall]
    have hpart := UInt64.lt_iff_toNat_lt.mp (UInt64.not_le.mp hall)
    have hnow := nowUs.toNat_lt
    rw [UInt64.toNat_add, Nat.mod_eq_of_lt (by omega)]
    omega

/-! ## The silence that was watched -/

/-- Where the pulse stands in a run whose calls had the times `times`: after the last pong that
counted, its time is moved only as far as leaves the watched time. -/
structure Watched (times : List UInt64) (s : LinkPulse) (l : PulseLog) : Prop where
  ticks_mem : ∀ t ∈ l.ticks, t ∈ times
  lastTick : l.ticks.getLast? = if s.lastTickUs = 0 then none else some s.lastTickUs
  unused : s.lastTickUs = 0 → ∀ slot, s.sent slot = {}
  silent : l.counted = [] → s.answeredOnce = false
  lastPong : ∀ pong sinceUs, l.counted.getLast? = some (pong, sinceUs) →
    s.lastTickUs ≠ 0 ∧ sinceUs ∈ times ∧ sinceUs ≤ s.lastPongUs ∧ (∃ t ∈ times, s.lastPongUs ≤ t) ∧
      (s.lastTickUs < s.lastPongUs → s.lastPongUs = sinceUs) ∧
      s.lastTickUs.toNat - s.lastPongUs.toNat ≤ watchedUs sinceUs l.ticks

theorem Watched.fresh (times : List UInt64) : Watched times {} {} := by
  refine ⟨?_, rfl, fun _ _ => rfl, fun _ => rfl, ?_⟩
  · intro t ht
    cases ht
  · intro pong sinceUs hlast
    cases hlast

theorem Watched.mono {times more : List UInt64} {s : LinkPulse} {l : PulseLog}
    (h : Watched times s l) : Watched (times ++ more) s l where
  ticks_mem t ht := List.mem_append_left more (h.ticks_mem t ht)
  lastTick := h.lastTick
  unused := h.unused
  silent := h.silent
  lastPong pong sinceUs hlast := by
    rcases h.lastPong pong sinceUs hlast with ⟨hticked, hsince, hle, ⟨t, ht, hmost⟩, hrest⟩
    exact ⟨hticked, List.mem_append_left more hsince, hle, ⟨t, List.mem_append_left more ht, hmost⟩,
      hrest⟩

/-- A tick with a time before it was not the first. -/
theorem Watched.ticked {times : List UInt64} {s : LinkPulse} {l : PulseLog} (h : Watched times s l)
    (hticks : l.ticks ≠ []) : s.lastTickUs ≠ 0 := by
  intro hzero
  have hlast := h.lastTick
  rw [if_pos hzero, List.getLast?_eq_none_iff] at hlast
  exact hticks hlast

section Step

variable {times : List UInt64} {s : LinkPulse} {l : PulseLog} {nowUs : UInt64}

theorem Watched.afterTick (h : Watched times s l) (hpos : ∀ t ∈ times, 0 < t) (hnow : 0 < nowUs)
    (hlate : ∀ t ∈ times, t ≤ nowUs) :
    Watched (times ++ [nowUs]) (s.tick nowUs) (l.record (.ticked nowUs)) := by
  rcases tick_spec s nowUs with ⟨htick, hmove⟩
  have hnonzero : nowUs ≠ 0 := (UInt64.ne_of_lt hnow).symm
  refine ⟨?_, ?_, ?_, ?_, ?_⟩
  · intro t ht
    rcases List.mem_append.mp ht with hold | hnew
    · exact List.mem_append_left _ (h.ticks_mem t hold)
    · exact List.mem_append_right _ hnew
  · rw [htick, if_neg hnonzero]
    exact List.getLast?_concat
  · intro hzero
    exact absurd (htick.symm.trans hzero) hnonzero
  · intro hnone
    rw [(tick_keeps s nowUs).2.2]
    exact h.silent hnone
  · intro pong sinceUs hlast
    rcases h.lastPong pong sinceUs hlast with ⟨hticked, hsince, hle, ⟨t, ht, hmost⟩, hahead, hwatched⟩
    have hprev : l.ticks.getLast? = some s.lastTickUs := by rw [h.lastTick, if_neg hticked]
    have hlastTick := UInt64.le_iff_toNat_le.mp
      (hlate _ (h.ticks_mem _ (List.mem_of_getLast? hprev)))
    have hpong := UInt64.le_iff_toNat_le.mp (UInt64.le_trans hmost (hlate t ht))
    have hsinceLe := UInt64.le_iff_toNat_le.mp hle
    have hsincePos := UInt64.lt_iff_toNat_lt.mp (hpos sinceUs hsince)
    have hahead' : s.lastTickUs.toNat < s.lastPongUs.toNat →
        s.lastPongUs.toNat = sinceUs.toNat := by
      intro hlt
      rw [hahead (UInt64.lt_iff_toNat_lt.mpr hlt)]
    have hsum : watchedUs sinceUs (l.record (.ticked nowUs)).ticks = watchedUs sinceUs l.ticks +
        if sinceUs < nowUs then min (nowUs.toNat - s.lastTickUs.toNat) kLinkWatchStepUs.toNat
        else 0 := watchedUs_concat hprev nowUs
    rw [htick, hsum]
    refine ⟨hnonzero, List.mem_append_left _ hsince, ?_, ⟨nowUs, by simp, ?_⟩, ?_, ?_⟩
    all_goals rcases hmove with ⟨hstay, hwhy⟩ | ⟨htickLt, hpongLt, hgap, hmoved⟩
    · rw [hstay]
      exact hle
    · rw [UInt64.le_iff_toNat_le]
      omega
    · rw [hstay, UInt64.le_iff_toNat_le]
      exact hpong
    · rw [UInt64.le_iff_toNat_le]
      omega
    · rw [hstay]
      intro hlt
      exact absurd (UInt64.lt_iff_toNat_lt.mp hlt) (Nat.not_lt.mpr hpong)
    · intro hlt
      have hlt' := UInt64.lt_iff_toNat_lt.mp hlt
      omega
    · -- not moved: the interval was watched whole, or it ended before the pong
      rw [hstay]
      by_cases hends : sinceUs < nowUs
      · rw [if_pos hends]
        have hends' := UInt64.lt_iff_toNat_lt.mp hends
        rcases hwhy with hzero | hback | hzero | hback | hshort
        · exact absurd hzero hticked
        · have hback' := UInt64.le_iff_toNat_le.mp hback
          omega
        · rw [hzero] at hsinceLe
          exact absurd (Nat.lt_of_lt_of_le hsincePos hsinceLe) (Nat.lt_irrefl _)
        · have hback' := UInt64.le_iff_toNat_le.mp hback
          omega
        · omega
      · rw [if_neg hends]
        have hends' := UInt64.le_iff_toNat_le.mp (UInt64.not_lt.mp hends)
        omega
    · -- moved by all of the interval but one watch step
      have hpongLt' := UInt64.lt_iff_toNat_lt.mp hpongLt
      rw [if_pos (UInt64.lt_of_le_of_lt hle hpongLt)]
      omega

theorem Watched.afterPing (h : Watched times s l) (hticks : l.ticks ≠ []) :
    Watched (times ++ [nowUs]) (s.makePing nowUs).1 (l.record (.pinged (s.makePing nowUs).2)) where
  ticks_mem := h.mono.ticks_mem
  lastTick := h.lastTick
  unused hzero := absurd hzero (h.ticked hticks)
  silent := h.silent
  lastPong := h.mono.lastPong

theorem Watched.afterPong (h : Watched times s l) {pong : PingPong}
    (hforged : pong = ⟨0, 0⟩ → l.ticks ≠ []) (hlate : ∀ t ∈ times, t ≤ nowUs)
    (hmatch : s.Matches pong nowUs) :
    Watched (times ++ [nowUs]) (s.onPong pong nowUs) (l.record (.counted pong nowUs)) := by
  -- before the first tick the slots are unused, and only the forged pong is found in them
  have hticked : s.lastTickUs ≠ 0 := by
    intro hzero
    have hslot := hmatch.1
    rw [h.unused hzero] at hslot
    have hid : 0 = pong.pingId := congrArg SentPing.pingId hslot
    have htime : 0 = pong.sendTimeUs := congrArg SentPing.sentUs hslot
    exact h.ticked (hforged (by cases pong; simp_all)) hzero
  rcases onPong_cases s pong nowUs with ⟨hno, -⟩ | ⟨-, -, hcounted⟩
  · exact absurd hmatch hno
  rw [hcounted]
  have hprev : l.ticks.getLast? = some s.lastTickUs := by rw [h.lastTick, if_neg hticked]
  have hbefore : s.lastTickUs ≤ nowUs := hlate _ (h.ticks_mem _ (List.mem_of_getLast? hprev))
  refine ⟨h.mono.ticks_mem, h.lastTick, fun hzero => absurd hzero hticked, ?_, ?_⟩
  · intro hnone
    exact absurd hnone (List.append_ne_nil_of_right_ne_nil _ (List.cons_ne_nil _ _))
  · intro last sinceUs hlast
    have heq : (pong, nowUs) = (last, sinceUs) :=
      Option.some.inj (List.getLast?_concat.symm.trans hlast)
    rcases Prod.mk.inj heq with ⟨-, hsince⟩
    subst hsince
    refine ⟨hticked, by simp, UInt64.le_refl _, ⟨nowUs, by simp, UInt64.le_refl _⟩, fun _ => rfl, ?_⟩
    exact Nat.sub_eq_zero_of_le (UInt64.le_iff_toNat_le.mp hbefore) ▸ Nat.zero_le _

end Step

/-! ## Runs -/

/-- Each ping leaves after a tick. -/
def PingsTicked (_ : LinkPulse) (out : List LinkPulseEvent) : LinkPulseCall → Prop
  | .makePing _ => (pulseLog out).ticks ≠ []
  | _ => True

/-- A pong with the values of an unused slot comes after a tick. -/
def BlankPongsTicked (_ : LinkPulse) (out : List LinkPulseEvent) : LinkPulseCall → Prop
  | .onPong pong _ => pong = ⟨0, 0⟩ → (pulseLog out).ticks ≠ []
  | _ => True

instance (s : LinkPulse) (out : List LinkPulseEvent) (c : LinkPulseCall) :
    Decidable (PingsTicked s out c) := by
  unfold PingsTicked
  split <;> infer_instance

instance (s : LinkPulse) (out : List LinkPulseEvent) :
    (c : LinkPulseCall) → Decidable (BlankPongsTicked s out c)
  | .onPong pong _ => inferInstanceAs (Decidable (pong = ⟨0, 0⟩ → (pulseLog out).ticks ≠ []))
  | .reset | .tick _ | .makePing _ => .isTrue trivial

theorem pulseTimes_concat (calls : List LinkPulseCall) (c : LinkPulseCall) :
    pulseTimes (calls ++ [c]) = pulseTimes calls ++ c.time?.toList := by
  unfold pulseTimes
  rw [List.filterMap_append]
  cases c <;> rfl

/-- The step lemma: a call that meets both conditions, not before the calls before it. -/
theorem Watched.step {times : List UInt64} {s : LinkPulse} {out : List LinkPulseEvent}
    (h : Watched times s (pulseLog out)) {c : LinkPulseCall} (hpos : ∀ t ∈ times ++ c.time?.toList, 0 < t)
    (hlate : ∀ t ∈ times, ∀ t' ∈ c.time?.toList, t ≤ t') (hping : PingsTicked s out c)
    (hblank : BlankPongsTicked s out c) :
    Watched (times ++ c.time?.toList) (linkPulse.step s c).1
      (pulseLog (out ++ (linkPulse.step s c).2)) := by
  cases c with
  | reset =>
    show Watched _ {} (pulseLog (out ++ [.reset]))
    rw [pulseLog_concat]
    exact .fresh _
  | tick nowUs =>
    show Watched _ (s.tick nowUs) (pulseLog (out ++ [.ticked nowUs]))
    rw [pulseLog_concat]
    apply h.afterTick
    · exact fun t ht => hpos t (List.mem_append_left _ ht)
    · exact hpos nowUs (List.mem_append_right _ (List.mem_singleton_self nowUs))
    · exact fun t ht => hlate t ht nowUs (List.mem_singleton_self nowUs)
  | makePing nowUs =>
    show Watched _ (s.makePing nowUs).1 (pulseLog (out ++ [.pinged (s.makePing nowUs).2]))
    rw [pulseLog_concat]
    exact h.afterPing hping
  | onPong pong nowUs =>
    show Watched _ (s.onPong pong nowUs)
      (pulseLog (out ++ if s.onPong pong nowUs = s then [] else [.counted pong nowUs]))
    rcases onPong_cases s pong nowUs with ⟨-, hsame⟩ | ⟨hmatch, hchanged, -⟩
    · rw [if_pos hsame, hsame, List.append_nil]
      exact h.mono
    · rw [if_neg hchanged, pulseLog_concat]
      exact h.afterPong hblank (fun t ht => hlate t ht nowUs (List.mem_singleton_self nowUs)) hmatch

/-- The run lemma. -/
theorem watched_run (calls : List LinkPulseCall) (hpos : ∀ t ∈ pulseTimes calls, 0 < t)
    (hmono : (pulseTimes calls).Pairwise (· ≤ ·)) (hpings : linkPulse.Along PingsTicked {} calls)
    (hblank : linkPulse.Along BlankPongsTicked {} calls) :
    Watched (pulseTimes calls) (linkPulse.run {} calls).1 (pulseLog (linkPulse.run {} calls).2) := by
  induction calls using List.reverseRecOn with
  | nil => exact .fresh []
  | append_singleton calls c ih =>
    rw [pulseTimes_concat] at hpos hmono ⊢
    rw [List.pairwise_append] at hmono
    rw [Machine.run_concat]
    apply Watched.step
    · exact ih (fun t ht => hpos t (List.mem_append_left _ ht)) hmono.1 hpings.init hblank.init
    · exact hpos
    · exact hmono.2.2
    · exact hpings.last
    · exact hblank.last

/-- A link that counts as stalled was silent for that long while it was watched. -/
theorem linkPulse_watched (calls : List LinkPulseCall) (nowUs : UInt64)
    (hpos : ∀ t ∈ pulseTimes (calls ++ [.tick nowUs]), 0 < t)
    (hmono : (pulseTimes (calls ++ [.tick nowUs])).Pairwise (· ≤ ·))
    (hpings : linkPulse.Along PingsTicked {} (calls ++ [.tick nowUs]))
    (hblank : linkPulse.Along BlankPongsTicked {} (calls ++ [.tick nowUs]))
    (hstalled : (linkPulse.run {} (calls ++ [.tick nowUs])).1.stalled nowUs = true) :
    ∃ pong sinceUs,
      (pulseLog (linkPulse.run {} (calls ++ [.tick nowUs])).2).counted.getLast? =
        some (pong, sinceUs) ∧
      kLinkStallAfterUs.toNat <
        watchedUs sinceUs (pulseLog (linkPulse.run {} (calls ++ [.tick nowUs])).2).ticks := by
  have hrun := watched_run _ hpos hmono hpings hblank
  have htick : (linkPulse.run {} (calls ++ [.tick nowUs])).1.lastTickUs = nowUs := by
    rw [Machine.run_concat]
    exact (tick_spec _ nowUs).1
  rw [pulseTimes_concat] at hrun hmono
  generalize linkPulse.run {} (calls ++ [.tick nowUs]) = after at hrun htick hstalled ⊢
  rcases decide_eq_true_iff.mp hstalled with ⟨honce, hsilent⟩
  cases hlast : (pulseLog after.2).counted.getLast? with
  | none =>
    have hquiet := hrun.silent (List.getLast?_eq_none_iff.mp hlast)
    rw [hquiet] at honce
    cases honce
  | some counted =>
    rcases counted with ⟨pong, sinceUs⟩
    refine ⟨pong, sinceUs, rfl, ?_⟩
    rcases hrun.lastPong pong sinceUs hlast with ⟨-, -, -, ⟨t, ht, hmost⟩, -, hwatched⟩
    have hbound : t ≤ nowUs := by
      rcases List.mem_append.mp ht with hold | hnew
      · exact (List.pairwise_append.mp hmono).2.2 t hold nowUs (List.mem_singleton_self nowUs)
      · rcases List.mem_singleton.mp hnew with rfl
        exact UInt64.le_refl _
    have hsub := UInt64.toNat_sub_of_le _ _ (UInt64.le_trans hmost hbound)
    have hlong := UInt64.lt_iff_toNat_lt.mp hsilent
    rw [htick] at hwatched
    omega

theorem times_pos {times : List UInt64} (h : times.all (fun t => decide (0 < t)) = true) :
    ∀ t ∈ times, 0 < t := by
  intro t ht
  exact of_decide_eq_true (List.all_eq_true.mp h t ht)

/-- A tick each quarter of a second, and no second pong. -/
theorem linkPulse_watched_silent :
    ∃ pong sinceUs,
      (pulseLog (linkPulse.run {} ([.tick 1, .makePing 1, .onPong ⟨1, 1⟩ 2] ++
        ((List.range 20).map fun i => .tick (250002 + 250000 * UInt64.ofNat i)) ++
          [.tick 5250002])).2).counted.getLast? = some (pong, sinceUs) ∧
      kLinkStallAfterUs.toNat <
        watchedUs sinceUs (pulseLog (linkPulse.run {} ([.tick 1, .makePing 1, .onPong ⟨1, 1⟩ 2] ++
          ((List.range 20).map fun i => .tick (250002 + 250000 * UInt64.ofNat i)) ++
            [.tick 5250002])).2).ticks :=
  linkPulse_watched _ _ (times_pos (by decide +kernel)) (by decide +kernel) (by decide +kernel)
    (by decide +kernel) (by decide +kernel)

/-- A pong that nobody asked for counts before the first tick, and the link stalls unwatched. -/
theorem linkPulse_unwatched :
    ¬ ∀ (calls : List LinkPulseCall) (nowUs : UInt64),
      (∀ t ∈ pulseTimes (calls ++ [.tick nowUs]), 0 < t) →
      (pulseTimes (calls ++ [.tick nowUs])).Pairwise (· ≤ ·) →
      linkPulse.Along PingsTicked {} (calls ++ [.tick nowUs]) →
      (linkPulse.run {} (calls ++ [.tick nowUs])).1.stalled nowUs = true →
      ∃ pong sinceUs,
        (pulseLog (linkPulse.run {} (calls ++ [.tick nowUs])).2).counted.getLast? =
          some (pong, sinceUs) ∧
        kLinkStallAfterUs.toNat <
          watchedUs sinceUs (pulseLog (linkPulse.run {} (calls ++ [.tick nowUs])).2).ticks := by
  intro h
  rcases h [.onPong ⟨0, 0⟩ 1, .tick 10000000, .makePing 10000000] 10000000
    (times_pos (by decide +kernel)) (by decide +kernel) (by decide +kernel) (by decide +kernel) with
    ⟨pong, sinceUs, hlast, hlong⟩
  have hblank : (pulseLog (linkPulse.run {} ([.onPong ⟨0, 0⟩ 1, .tick 10000000,
      .makePing 10000000] ++ [.tick 10000000])).2).counted.getLast? = some (⟨0, 0⟩, 1) := by
    decide +kernel
  rw [hblank] at hlast
  cases hlast
  exact absurd hlong (by decide +kernel)

end LinkPulse

end Deskhub
