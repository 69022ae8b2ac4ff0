import Deskhub.Auth.FailureLimiter

/-!
# The window of the failure limit

The slot of a pair keeps how many failures followed each other within the window, and the time of
the last one. Three failures can do so without all three lying within one window.
-/

namespace Deskhub

namespace AuthFailureLimiter

/-! ## Failures of one pair -/

/-- The failure blocks the pair anew. -/
def blocks (s : AuthFailureLimiter) (key : Fingerprint) (ip : UInt32) (nowUs : UInt64) : Bool :=
  match (s.recordFailure key ip nowUs).entries.find? (Entry.isOf key ip) with
  | none => false
  | some entry => entry.failures = 0 ∧ entry.blockedUntilUs = nowUs + kAuthFailureCooldownUs

/-- The failures of one pair; the outputs are their times, with whether they blocked the pair. -/
def pairFailures (key : Fingerprint) (ip : UInt32) :
    Machine AuthFailureLimiter UInt64 (UInt64 × Bool) where
  step s nowUs := (s.recordFailure key ip nowUs, [(nowUs, s.blocks key ip nowUs)])

/-- The failures that no block used: those since the last block. -/
def unused (out : List (UInt64 × Bool)) : List UInt64 :=
  out.foldl (fun failures e => if e.2 then [] else failures ++ [e.1]) []

theorem unused_concat (out : List (UInt64 × Bool)) (e : UInt64 × Bool) :
    unused (out ++ [e]) = if e.2 then [] else unused out ++ [e.1] := by
  unfold unused
  rw [List.foldl_append, List.foldl_cons, List.foldl_nil]

/-- The failure at `f` lies within the window up to `t`. -/
def Within (t f : UInt64) : Prop := t.toNat ≤ f.toNat + kAuthFailureWindowUs.toNat

instance (t f : UInt64) : Decidable (Within t f) := Nat.decLe _ _

theorem within_iff {t f : UInt64} (h : f ≤ t) : Within t f ↔ t - f ≤ kAuthFailureWindowUs := by
  have hle := UInt64.le_iff_toNat_le.mp h
  unfold Within
  rw [UInt64.le_iff_toNat_le, UInt64.toNat_sub_of_le _ _ h]
  omega

/-- The limit as a window: so many of the failures lie within it. -/
def Reached (failures : List UInt64) (t : UInt64) : Prop :=
  kAuthFailureLimit ≤ (failures.filter fun f => Within t f).length

/-! ## What a failure leaves in the slot -/

section Slot

variable {s : AuthFailureLimiter} {key : Fingerprint} {ip : UInt32} {old : Entry} {nowUs : UInt64}

/-- The first failure of the pair, or one long after the last. -/
def firstFailure (key : Fingerprint) (ip : UInt32) (nowUs : UInt64) : Entry :=
  { key := key, ip := ip, failures := 1, lastFailureUs := nowUs, occupied := true }

theorem failed_anew (h : old.isOf key ip = false ∨ nowUs < old.lastFailureUs ∨
    kAuthFailureWindowUs < nowUs - old.lastFailureUs) :
    failed old key ip nowUs = firstFailure key ip nowUs := by
  have hnew : !old.occupied ∨ old.ip ≠ ip ∨ old.key ≠ key ∨ nowUs < old.lastFailureUs ∨
      kAuthFailureWindowUs < nowUs - old.lastFailureUs := by
    rcases h with hother | hlater
    · rw [← Bool.not_eq_true, isOf_iff] at hother
      by_cases htaken : old.occupied = true
      · by_cases hip : old.ip = ip
        · exact .inr (.inr (.inl fun hkey => hother ⟨htaken, hip, hkey⟩))
        · exact .inr (.inl hip)
      · exact .inl (by simpa using htaken)
    · exact .inr (.inr (.inr hlater))
  unfold failed
  dsimp only
  rw [if_pos hnew]
  exact if_neg (show ¬ 3 ≤ 0 + 1 by decide)

/-- One more failure within the window after the last. -/
theorem failed_within (hown : old.isOf key ip = true) (hle : old.lastFailureUs ≤ nowUs)
    (hwithin : Within nowUs old.lastFailureUs) :
    failed old key ip nowUs =
      if kAuthFailureLimit ≤ old.failures + 1 then
        { old with
          failures := 0
          lastFailureUs := nowUs
          blockedUntilUs := nowUs + kAuthFailureCooldownUs }
      else { old with failures := old.failures + 1, lastFailureUs := nowUs } := by
  rcases isOf_iff.mp hown with ⟨htaken, hip, hkey⟩
  have hsame : ¬ (!old.occupied ∨ old.ip ≠ ip ∨ old.key ≠ key ∨ nowUs < old.lastFailureUs ∨
      kAuthFailureWindowUs < nowUs - old.lastFailureUs) := by
    rintro (hfree | hother | hother | hbefore | hlong)
    · rw [htaken] at hfree
      cases hfree
    · exact hother hip
    · exact hother hkey
    · exact UInt64.not_lt.mpr hle hbefore
    · exact UInt64.not_lt.mpr ((within_iff hle).mp hwithin) hlong
  unfold failed
  dsimp only
  rw [if_neg hsame]

/-- The slot of the pair after a failure. -/
theorem find?_recordFailure_slot (s : AuthFailureLimiter) (key : Fingerprint) (ip : UInt32)
    (nowUs : UInt64) :
    (s.recordFailure key ip nowUs).entries.find? (Entry.isOf key ip) =
      match s.entries.find? (Entry.isOf key ip) with
      | none => some (firstFailure key ip nowUs)
      | some entry => some (failed entry key ip nowUs) := by
  cases hfind : s.entries.find? (Entry.isOf key ip) with
  | none =>
    have hother : ∀ x ∈ s.entries, x.isOf key ip = false := by
      intro x hx
      simpa using List.find?_eq_none.mp hfind x hx
    rcases s.recordFailure_spec key ip nowUs with ⟨i, old, hold, hset, -⟩
    have hfirst : failed old key ip nowUs = firstFailure key ip nowUs :=
      failed_anew (.inl (hother old (List.mem_of_getElem? hold)))
    dsimp only
    rw [hset, ← hfirst]
    apply find?_set_first (List.getElem?_eq_some_iff.mp hold).1 _ (failed_spec old key ip nowUs).1
    exact fun x hx => hother x (List.mem_of_mem_take hx)
  | some entry =>
    rcases s.find?_recordFailure_own key ip nowUs with ⟨old, hnew, hsame⟩
    rw [hnew, hsame entry hfind]

end Slot

/-! ## The chain of failures in a slot -/

/-- What the slot of the pair keeps of the unused failures: how many of the last ones followed
each other within the window, none of those before within the window up to them. -/
inductive Chain : List UInt64 → Option Entry → Prop
  | fresh : Chain [] none
  | used {entry : Entry} (hfailures : entry.failures = 0) : Chain [] (some entry)
  | one {before : List UInt64} {entry : Entry} (hfailures : entry.failures = 1)
      (hbefore : ∀ g ∈ before, ¬ Within entry.lastFailureUs g) :
      Chain (before ++ [entry.lastFailureUs]) (some entry)
  | two {before : List UInt64} {f : UInt64} {entry : Entry} (hfailures : entry.failures = 2)
      (hnext : Within entry.lastFailureUs f) (hbefore : ∀ g ∈ before, ¬ Within f g) :
      Chain (before ++ [f, entry.lastFailureUs]) (some entry)

/-- Two failures within the window each of the next, but the first not within that of the call. -/
def Spread (failures : List UInt64) (t : UInt64) : Prop :=
  ∃ before f g, failures = before ++ [f, g] ∧ Within g f ∧ Within t g ∧ ¬ Within t f

theorem Within.of_le {t u f : UInt64} (hle : u ≤ t) (h : Within t f) : Within u f :=
  Nat.le_trans (UInt64.le_iff_toNat_le.mp hle) h

theorem Within.of_later {t f g : UInt64} (hle : f ≤ g) (h : Within t f) : Within t g :=
  Nat.le_trans h (Nat.add_le_add_right (UInt64.le_iff_toNat_le.mp hle) _)

/-- Of failures that are too old none is in the window. -/
theorem filter_within_eq_nil {failures : List UInt64} {t u : UInt64} (hle : u ≤ t)
    (h : ∀ g ∈ failures, ¬ Within u g) : failures.filter (fun f => Within t f) = [] := by
  rw [List.filter_eq_nil_iff]
  intro g hg hwithin
  exact h g hg ((of_decide_eq_true hwithin).of_le hle)

theorem reached_concat {failures : List UInt64} {t : UInt64} :
    Reached (failures ++ [t]) t ↔ 2 ≤ (failures.filter fun f => Within t f).length := by
  have hself : Within t t := Nat.le_add_right _ _
  unfold Reached
  rw [List.filter_append, List.length_append, List.filter_cons_of_pos (by simpa using hself)]
  exact Nat.succ_le_succ_iff

/-- What a failure at `t` does to the chain, the slot having `entry` then. -/
structure After (failures : List UInt64) (t : UInt64) (blocked : Bool) (entry : Entry) : Prop where
  blocked_iff :
    blocked = true ↔ entry.failures = 0 ∧ entry.blockedUntilUs = t + kAuthFailureCooldownUs
  chain : Chain (if blocked then [] else failures ++ [t]) (some entry)
  window : (blocked = true ↔ Reached (failures ++ [t]) t) ↔ ¬ Spread failures t

section After

variable {before failures : List UInt64} {f g t : UInt64} {entry : Entry}

/-- The chain starts anew: every failure before is too old, or there is none. -/
theorem After.anew (hfailures : entry.failures = 1) (hlast : entry.lastFailureUs = t)
    (hold : ∀ g ∈ failures, ¬ Within t g) : After failures t false entry := by
  refine ⟨?_, ?_, ?_⟩
  · simp [hfailures]
  · rw [if_neg (by decide), ← hlast]
    rw [← hlast] at hold
    exact .one hfailures hold
  · have hfew : ¬ Reached (failures ++ [t]) t := by
      rw [reached_concat, filter_within_eq_nil (UInt64.le_refl t) hold]
      decide
    have hspread : ¬ Spread failures t := by
      rintro ⟨before, f, g, rfl, -, hg, -⟩
      exact hold g (by simp) hg
    exact ⟨fun _ => hspread, fun _ => ⟨fun h => absurd h Bool.false_ne_true, fun h => absurd h hfew⟩⟩

/-- The second failure of the chain. -/
theorem After.second (hfailures : entry.failures = 2) (hlast : entry.lastFailureUs = t)
    (hle : f ≤ t) (hnext : Within t f) (hold : ∀ g ∈ before, ¬ Within f g) :
    After (before ++ [f]) t false entry := by
  refine ⟨?_, ?_, ?_⟩
  · simp [hfailures]
  · rw [if_neg (by decide), List.append_assoc, ← hlast]
    rw [← hlast] at hnext
    exact .two hfailures hnext hold
  · have hfew : ¬ Reached (before ++ [f] ++ [t]) t := by
      rw [reached_concat, List.filter_append, filter_within_eq_nil hle hold, List.nil_append,
        Nat.not_le]
      exact Nat.lt_succ_of_le (List.length_filter_le _ _)
    have hspread : ¬ Spread (before ++ [f]) t := by
      rintro ⟨before', f', g, heq, hg, -⟩
      rw [List.append_cons before' f' [g]] at heq
      rcases List.append_inj' heq rfl with ⟨rfl, hlast⟩
      cases hlast
      exact hold f' (by simp) hg
    exact ⟨fun _ => hspread, fun _ => ⟨fun h => absurd h Bool.false_ne_true, fun h => absurd h hfew⟩⟩

/-- The third failure of the chain blocks, the first two being in the window or not. -/
theorem After.third (hfailures : entry.failures = 0)
    (huntil : entry.blockedUntilUs = t + kAuthFailureCooldownUs) (hle : f ≤ t)
    (hnext : Within g f) (hthen : Within t g) (hold : ∀ g ∈ before, ¬ Within f g) :
    After (before ++ [f, g]) t true entry := by
  refine ⟨?_, ?_, ?_⟩
  · simp [hfailures, huntil]
  · rw [if_pos rfl]
    exact .used hfailures
  · have hreached : Reached (before ++ [f, g] ++ [t]) t ↔ Within t f := by
      rw [reached_concat, List.filter_append, filter_within_eq_nil hle hold, List.nil_append]
      by_cases hfirst : Within t f <;> simp [hfirst, hthen]
    have hspread : Spread (before ++ [f, g]) t ↔ ¬ Within t f := by
      constructor
      · rintro ⟨before', f', g', heq, -, -, hfirst⟩
        rcases List.append_inj' heq rfl with ⟨-, hlast⟩
        cases hlast
        exact hfirst
      · intro hfirst
        exact ⟨before, f, g, rfl, hnext, hthen, hfirst⟩
    rw [hreached, hspread, not_not]
    simp

end After

/-- What a failure of the pair does to its slot. -/
theorem failed_failures {old : Entry} {key : Fingerprint} {ip : UInt32} {t : UInt64}
    (hown : old.isOf key ip = true) (hle : old.lastFailureUs ≤ t) :
    (¬ Within t old.lastFailureUs ∧ (failed old key ip t).failures = 1) ∨
      (Within t old.lastFailureUs ∧ old.failures + 1 < kAuthFailureLimit ∧
        (failed old key ip t).failures = old.failures + 1) ∨
      (Within t old.lastFailureUs ∧ kAuthFailureLimit ≤ old.failures + 1 ∧
        (failed old key ip t).failures = 0 ∧
        (failed old key ip t).blockedUntilUs = t + kAuthFailureCooldownUs) := by
  by_cases hwithin : Within t old.lastFailureUs
  · rw [failed_within hown hle hwithin]
    by_cases hlimit : kAuthFailureLimit ≤ old.failures + 1
    · rw [if_pos hlimit]
      exact .inr (.inr ⟨hwithin, hlimit, rfl, rfl⟩)
    · rw [if_neg hlimit]
      exact .inr (.inl ⟨hwithin, Nat.not_le.mp hlimit, rfl⟩)
  · left
    refine ⟨hwithin, ?_⟩
    rw [within_iff hle, UInt64.not_le] at hwithin
    rw [failed_anew (.inr (.inr hwithin))]
    rfl

/-- The step lemma: a failure of the pair whose slot has the chain. -/
theorem Chain.step {s : AuthFailureLimiter} {key : Fingerprint} {ip : UInt32}
    {failures : List UInt64} {t : UInt64}
    (h : Chain failures (s.entries.find? (Entry.isOf key ip)))
    (hlast : ∀ entry, s.entries.find? (Entry.isOf key ip) = some entry → entry.lastFailureUs ≤ t)
    (hsorted : (failures ++ [t]).Pairwise (· ≤ ·)) :
    ∃ entry, (s.recordFailure key ip t).entries.find? (Entry.isOf key ip) = some entry ∧
      entry.lastFailureUs = t ∧ After failures t (s.blocks key ip t) entry := by
  have hblocks : ∀ {entry blocked},
      (s.recordFailure key ip t).entries.find? (Entry.isOf key ip) = some entry →
      After failures t blocked entry → After failures t (s.blocks key ip t) entry := by
    intro entry blocked hfind hafter
    have heq : s.blocks key ip t = blocked := by
      unfold blocks
      rw [hfind, Bool.eq_iff_iff, hafter.blocked_iff]
      simp
    rw [heq]
    exact hafter
  have hslot := s.find?_recordFailure_slot key ip t
  have hmost : ∀ f ∈ failures, f ≤ t := fun f hf =>
    (List.pairwise_append.mp hsorted).2.2 f hf t (List.mem_singleton_self t)
  cases hfind : s.entries.find? (Entry.isOf key ip) with
  | none =>
    rw [hfind] at h hslot
    cases h with
    | fresh =>
      exact ⟨_, hslot, rfl, hblocks hslot (.anew rfl rfl fun g hg => absurd hg List.not_mem_nil)⟩
  | some old =>
    rw [hfind] at h hslot
    have hown : old.isOf key ip = true := List.find?_some hfind
    have hle := hlast old hfind
    have hthen : (failed old key ip t).lastFailureUs = t := (failed_spec old key ip t).2
    refine ⟨_, hslot, hthen, ?_⟩
    have hcases := failed_failures hown hle
    cases h with
    | used hfailures =>
      -- whether the block was within the window or not, the chain starts anew
      refine hblocks hslot (.anew ?_ hthen fun g hg => absurd hg List.not_mem_nil)
      rcases hcases with ⟨-, hone⟩ | ⟨-, -, hmore⟩ | ⟨-, hlimit, -⟩
      · exact hone
      · rw [hmore, hfailures]
      · rw [hfailures] at hlimit
        exact absurd hlimit (by decide)
    | one hfailures hbefore =>
      rcases hcases with ⟨hlong, hone⟩ | ⟨hwithin, -, hmore⟩ | ⟨-, hlimit, -⟩
      · refine hblocks hslot (.anew hone hthen ?_)
        intro g hg hwithin
        rcases List.mem_append.mp hg with hold | hnew
        · exact hbefore g hold (hwithin.of_le hle)
        · rw [List.mem_singleton.mp hnew] at hwithin
          exact hlong hwithin
      · exact hblocks hslot (.second (by rw [hmore, hfailures]) hthen hle hwithin hbefore)
      · rw [hfailures] at hlimit
        exact absurd hlimit (by decide)
    | @two before f _ hfailures hnext hbefore =>
      have hfg : f ≤ old.lastFailureUs := by
        have hpair := (List.pairwise_append.mp (List.pairwise_append.mp hsorted).1).2.1
        exact (List.pairwise_cons.mp hpair).1 _ (List.mem_singleton_self _)
      have hf : f ≤ t := hmost f (by simp)
      rcases hcases with ⟨hlong, hone⟩ | ⟨-, hless, -⟩ | ⟨hwithin, -, hzero, huntil⟩
      · refine hblocks hslot (.anew hone hthen ?_)
        intro g hg hwithin
        rcases List.mem_append.mp hg with hold | hnew
        · exact hbefore g hold (hwithin.of_le hf)
        · rcases List.mem_cons.mp hnew with rfl | hnew
          · exact hlong (hwithin.of_later hfg)
          · rw [List.mem_singleton.mp hnew] at hwithin
            exact hlong hwithin
      · rw [hfailures] at hless
        exact absurd hless (by decide)
      · exact hblocks hslot (.third hzero huntil hf hnext hwithin hbefore)

/-! ## Runs -/

/-- Where the slot of the pair stands after its failures at `times`. -/
structure Counted (times : List UInt64) (s : AuthFailureLimiter) (key : Fingerprint) (ip : UInt32)
    (out : List (UInt64 × Bool)) : Prop where
  chain : Chain (unused out) (s.entries.find? (Entry.isOf key ip))
  lastFailure : ∀ entry, s.entries.find? (Entry.isOf key ip) = some entry →
    entry.lastFailureUs ∈ times
  sublist : (unused out).Sublist times

/-- The run lemma. -/
theorem counted_run (key : Fingerprint) (ip : UInt32) (times : List UInt64)
    (hsorted : times.Pairwise (· ≤ ·)) :
    Counted times ((pairFailures key ip).run {} times).1 key ip
      ((pairFailures key ip).run {} times).2 := by
  induction times using List.reverseRecOn with
  | nil =>
    have hnone : ({} : AuthFailureLimiter).entries.find? (Entry.isOf key ip) = none := by
      rw [List.find?_eq_none]
      intro x hx
      rw [show x = {} from List.eq_of_mem_replicate hx]
      exact Bool.noConfusion
    rw [Machine.run_nil]
    refine ⟨?_, ?_, List.Sublist.refl _⟩
    · rw [hnone]
      exact .fresh
    · rw [hnone]
      intro entry h
      cases h
  | append_singleton times t ih =>
    rcases ih (List.pairwise_append.mp hsorted).1 with ⟨hchain, hlast, hsub⟩
    have hmost : ∀ f ∈ times, f ≤ t := fun f hf =>
      (List.pairwise_append.mp hsorted).2.2 f hf t (List.mem_singleton_self t)
    rcases hchain.step (fun entry h => hmost _ (hlast entry h))
      (hsorted.sublist (hsub.append (List.Sublist.refl [t]))) with ⟨entry, hfind, hthen, hafter⟩
    rw [Machine.run_concat]
    refine ⟨?_, ?_, ?_⟩
    · show Chain (unused (_ ++ [_])) (List.find? _ (recordFailure _ key ip t).entries)
      rw [unused_concat, hfind]
      exact hafter.chain
    · intro entry' hfind'
      rw [Option.some.inj (hfind'.symm.trans hfind), hthen]
      exact List.mem_append_right _ (List.mem_singleton_self t)
    · show (unused (_ ++ [_])).Sublist _
      rw [unused_concat]
      split
      · exact List.nil_sublist _
      · exact hsub.append (List.Sublist.refl [t])

/-- In every run of failures of one pair in time order: a failure blocks the pair exactly when the
window has the limit of unused failures, unless the last of them are spread too wide. -/
theorem failureLimiter_window_iff (key : Fingerprint) (ip : UInt32) (times : List UInt64)
    (t : UInt64) (hsorted : (times ++ [t]).Pairwise (· ≤ ·)) :
    (((pairFailures key ip).run {} times).1.blocks key ip t = true ↔
        Reached (unused ((pairFailures key ip).run {} times).2 ++ [t]) t) ↔
      ¬ Spread (unused ((pairFailures key ip).run {} times).2) t := by
  rcases counted_run key ip times (List.pairwise_append.mp hsorted).1 with ⟨hchain, hlast, hsub⟩
  have hmost : ∀ f ∈ times, f ≤ t := fun f hf =>
    (List.pairwise_append.mp hsorted).2.2 f hf t (List.mem_singleton_self t)
  rcases hchain.step (fun entry h => hmost _ (hlast entry h))
    (hsorted.sublist (hsub.append (List.Sublist.refl [t]))) with ⟨entry, -, -, hafter⟩
  exact hafter.window

/-- Three failures, one millisecond after the other. -/
theorem failureLimiter_window_iff_quick :
    ((pairFailures (deviceKey 0) 7).run {} [1000, 2000]).1.blocks (deviceKey 0) 7 3000 = true ↔
      Reached (unused ((pairFailures (deviceKey 0) 7).run {} [1000, 2000]).2 ++ [3000]) 3000 := by
  refine (failureLimiter_window_iff (deviceKey 0) 7 [1000, 2000] 3000 (by decide)).mpr ?_
  rintro ⟨before, f, g, heq, -, -, hfirst⟩
  have hunused : unused ((pairFailures (deviceKey 0) 7).run {} [1000, 2000]).2 = [] ++ [1000, 2000] := by
    decide +kernel
  rcases List.append_inj' (hunused.symm.trans heq) rfl with ⟨-, hlast⟩
  cases hlast
  exact hfirst (by decide)

/-- A minute apart each, so the first two minutes before the third: that blocks as well. -/
theorem failureLimiter_spread :
    ¬ ∀ (key : Fingerprint) (ip : UInt32) (times : List UInt64) (t : UInt64),
      (times ++ [t]).Pairwise (· ≤ ·) →
      (((pairFailures key ip).run {} times).1.blocks key ip t = true ↔
        Reached (unused ((pairFailures key ip).run {} times).2 ++ [t]) t) := by
  intro h
  have hwindow := h (deviceKey 0) 7 [0, 60000000] 120000000 (by decide)
  have hreached := hwindow.mp (by decide +kernel)
  revert hreached
  unfold Reached
  decide +kernel

end AuthFailureLimiter

end Deskhub
