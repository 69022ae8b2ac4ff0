import Deskhub.Session.ScreenHostCalls
import Mathlib.Algebra.BigOperators.Group.Finset.Basic
import Mathlib.Algebra.Order.BigOperators.Group.Finset
import Mathlib.Data.Fintype.BigOperators

/-!
# The screen sessions of a host

The sessions of a host share the places of one budget. `screenHosts_sound` says that after
every call each session's viewers can be told apart, what it publishes lists exactly them,
and the budget has as many places taken as there are viewers.
-/

namespace Deskhub

namespace ScreenHostSession

/-- The viewers of the second session were in the first, or joined after all that were. -/
structure Later (s s' : ScreenHostSession) : Prop where
  nextJoinOrder : s.viewers.nextJoinOrder ≤ s'.viewers.nextJoinOrder
  seated : ∀ i, (s'.slot i).active = true →
    ((s.slot i).active = true ∧ (s'.slot i).joinOrder = (s.slot i).joinOrder) ∨
      s.viewers.nextJoinOrder ≤ (s'.slot i).joinOrder

theorem Later.of_seats {s s' : ScreenHostSession} (h : SameSeats s s') : Later s s' := by
  refine ⟨h.nextJoinOrder.ge, ?_⟩
  intro i hactive
  exact .inl ⟨(h.active i).symm.trans hactive, h.joinOrder i⟩

theorem Later.trans {s s' s'' : ScreenHostSession} (h : Later s s') (h' : Later s' s'') :
    Later s s'' := by
  refine ⟨h.nextJoinOrder.trans h'.nextJoinOrder, ?_⟩
  intro i hactive
  rcases h'.seated i hactive with ⟨hactive', horder'⟩ | hnew
  · rcases h.seated i hactive' with ⟨hbefore, horder⟩ | hnew
    · exact .inl ⟨hbefore, horder'.trans horder⟩
    · exact .inr (hnew.trans_eq horder'.symm)
  · exact .inr (h.nextJoinOrder.trans hnew)

/-- What a call does to the places and to the order of joining. -/
structure Follows (s : ScreenHostSession) (b : Option ViewerBudget) (s' : ScreenHostSession)
    (b' : Option ViewerBudget) : Prop where
  places : ∀ p, b = some p → s.viewers.count ≤ p.taken →
    ∃ p', b' = some p' ∧ p'.taken + s.viewers.count = p.taken + s'.viewers.count ∧
      (p.taken ≤ kMaxViewersPerHost → p'.taken ≤ kMaxViewersPerHost)
  unshared : b = none → b' = none
  later : Later s s'

theorem Follows.of_seats {s s' : ScreenHostSession} (h : SameSeats s s')
    (b : Option ViewerBudget) : Follows s b s' b := by
  refine ⟨?_, id, .of_seats h⟩
  intro p hp _
  exact ⟨p, hp, by rw [h.count], id⟩

theorem Follows.trans {s s' s'' : ScreenHostSession} {b b' b'' : Option ViewerBudget}
    (h : Follows s b s' b') (h' : Follows s' b' s'' b'') : Follows s b s'' b'' := by
  refine ⟨?_, fun hb => h'.unshared (h.unshared hb), h.later.trans h'.later⟩
  intro p hp hcount
  obtain ⟨p', hp', hsum, hle⟩ := h.places p hp hcount
  obtain ⟨p'', hp'', hsum', hle'⟩ := h'.places p' hp' (by omega)
  exact ⟨p'', hp'', by omega, fun hmax => hle' (hle hmax)⟩

theorem Dropped.follows {s : ScreenHostSession} {b : Option ViewerBudget} {i : SlotId}
    {c : HostCall} (h : Dropped s b i c) : Follows s b c.session c.budget := by
  have hcount := h.count
  refine ⟨?_, ?_, ⟨h.nextJoinOrder.ge, ?_⟩⟩
  · intro p hp hle
    refine ⟨p.give 1, ?_, ?_, ?_⟩
    · rw [h.budget, hp]
      rfl
    · change p.taken - 1 + s.viewers.count = p.taken + c.session.viewers.count
      omega
    · intro hmax
      exact (Nat.sub_le p.taken 1).trans hmax
  · intro hb
    rw [h.budget, hb]
    rfl
  · intro j hj
    obtain ⟨hji, hactive⟩ := h.left j hj
    rw [h.kept j hji hactive]
    exact .inl ⟨hactive, rfl⟩

theorem WelcomedBack.slot_eq {s s' : ScreenHostSession} {i : SlotId} {m : Hello}
    {nowUs fromPacked : UInt64} {out : List ScreenHostEvent}
    (h : WelcomedBack s i m nowUs fromPacked s' out) (k : SlotId) :
    s'.slot k = if k = i then greeted (s.slot i) m nowUs fromPacked else s.slot k := by
  change s'.viewers.slots k = _
  rw [h.slots, Function.update_apply]
  rfl

theorem WelcomedBack.seats {s s' : ScreenHostSession} {i : SlotId} {m : Hello}
    {nowUs fromPacked : UInt64} {out : List ScreenHostEvent}
    (h : WelcomedBack s i m nowUs fromPacked s' out) :
    ∀ j, (s'.slot j).active = (s.slot j).active ∧ (s'.slot j).started = (s.slot j).started ∧
      (s'.slot j).clientId = (s.slot j).clientId ∧
      (s'.slot j).joinOrder = (s.slot j).joinOrder ∧
      (s'.slot j).lastInputUs = (s.slot j).lastInputUs := by
  intro j
  rw [h.slot_eq]
  by_cases hj : j = i
  · rw [if_pos hj, hj]
    exact ⟨rfl, rfl, rfl, rfl, rfl⟩
  · rw [if_neg hj]
    exact ⟨rfl, rfl, rfl, rfl, rfl⟩

theorem WelcomedBack.follows {s s' : ScreenHostSession} {i : SlotId} {m : Hello}
    {nowUs fromPacked : UInt64} {out : List ScreenHostEvent}
    (h : WelcomedBack s i m nowUs fromPacked s' out) (b : Option ViewerBudget) :
    Follows s b s' b := by
  refine ⟨?_, id, ⟨h.nextJoinOrder.ge, ?_⟩⟩
  · intro p hp _
    exact ⟨p, hp, by rw [h.count], id⟩
  · intro j hj
    obtain ⟨hactive, -, -, horder, -⟩ := h.seats j
    exact .inl ⟨hactive.symm.trans hj, horder⟩

theorem takePlace_eq_some {b b' : Option ViewerBudget} (h : ViewerTable.takePlace b = some b') :
    (b = none ∧ b' = none) ∨ ∃ p, b = some p ∧ p.taken < kMaxViewersPerHost ∧
      b' = some { p with taken := p.taken + 1 } := by
  cases b with
  | none =>
    cases h
    exact .inl ⟨rfl, rfl⟩
  | some p =>
    unfold ViewerTable.takePlace ViewerBudget.tryTake at h
    dsimp only at h
    by_cases hlt : p.taken < kMaxViewersPerHost
    · rw [if_pos hlt] at h
      cases h
      exact .inr ⟨p, rfl, hlt, rfl⟩
    · rw [if_neg hlt] at h
      cases h

theorem Admitted.slot_eq {s : ScreenHostSession} {b : Option ViewerBudget} {m : Hello}
    {nowUs fromPacked : UInt64} {random : Option UInt32} {i : SlotId} {c : HostCall}
    (h : Admitted s b m nowUs fromPacked random i c) (k : SlotId) :
    c.session.slot k =
      if k = i then newViewer m nowUs fromPacked s.viewers.nextJoinOrder else s.slot k := by
  change c.session.viewers.slots k = _
  rw [h.slots, Function.update_apply]
  rfl

theorem Admitted.follows {s : ScreenHostSession} {b : Option ViewerBudget} {m : Hello}
    {nowUs fromPacked : UInt64} {random : Option UInt32} {i : SlotId} {c : HostCall}
    (h : Admitted s b m nowUs fromPacked random i c) : Follows s b c.session c.budget := by
  have hcount := h.count
  have hnext := h.nextJoinOrder
  refine ⟨?_, ?_, ⟨by omega, ?_⟩⟩
  · intro p hp _
    rcases takePlace_eq_some h.budget with ⟨hnone, -⟩ | ⟨q, hq, hlt, hb'⟩
    · rw [hp] at hnone
      cases hnone
    · cases hp.symm.trans hq
      refine ⟨_, hb', ?_, fun _ => hlt⟩
      change p.taken + 1 + s.viewers.count = p.taken + c.session.viewers.count
      omega
  · intro hb
    rcases takePlace_eq_some h.budget with ⟨-, hb'⟩ | ⟨q, hq, -, -⟩
    · exact hb'
    · rw [hb] at hq
      cases hq
  · intro j hj
    have hslot := h.slot_eq j
    by_cases hji : j = i
    · rw [hslot, if_pos hji]
      exact .inr le_rfl
    · rw [hslot, if_neg hji] at hj ⊢
      exact .inl ⟨hj, rfl⟩

theorem Welcomed.follows {s : ScreenHostSession} {b : Option ViewerBudget} {m : Hello}
    {nowUs fromPacked : UInt64} {random : Option UInt32} {c : HostCall}
    (h : Welcomed s b m nowUs fromPacked random c) (htable : s.viewers.Consistent) :
    c.session.viewers.Consistent ∧ Follows s b c.session c.budget := by
  cases h with
  | noSession _ _ =>
    refine ⟨htable, .of_seats (.of_viewers ?_) b⟩
    rfl
  | busy _ _ =>
    refine ⟨htable, .of_seats (.of_viewers ?_) b⟩
    rfl
  | admitted h => exact ⟨h.table, h.follows⟩

theorem Drops.follows {s : ScreenHostSession} {b : Option ViewerBudget} {c : HostCall}
    (h : Drops s b c) (htable : s.viewers.Consistent) :
    c.session.viewers.Consistent ∧ Follows s b c.session c.budget := by
  induction h with
  | none => exact ⟨htable, .of_seats (SameSeats.refl s) b⟩
  | more _ _ hdropped ih => exact ⟨hdropped.table, ih.2.trans hdropped.follows⟩

theorem Cleared.follows {s : ScreenHostSession} {b : Option ViewerBudget} {m : Hello}
    {fromPacked : UInt64} {c : HostCall} (h : Cleared s b m fromPacked c)
    (htable : s.viewers.Consistent) :
    c.session.viewers.Consistent ∧ Follows s b c.session c.budget := by
  cases h with
  | kept _ => exact ⟨htable, .of_seats (SameSeats.refl s) b⟩
  | dropped _ _ _ hdropped => exact ⟨hdropped.table, hdropped.follows⟩

/-- Every call keeps the table consistent. -/
theorem Called.follows {s : ScreenHostSession} {b : Option ViewerBudget} {call : ScreenHostCall}
    {c : HostCall} (h : Called s b call c) (htable : s.viewers.Consistent) :
    c.session.viewers.Consistent ∧ Follows s b c.session c.budget := by
  cases h with
  | message hmsg _ h =>
    have hactive := messageOf_active hmsg
    obtain ⟨hconsistent, hseats⟩ := h.seats (seen_consistent htable hactive _)
      (((seen_seats s _ _).active _).trans hactive)
    exact ⟨hconsistent, .of_seats ((seen_seats s _ _).trans hseats) b⟩
  | left before after _ _ h hsame _ _ =>
    obtain ⟨hconsistent, hfollows⟩ := h.follows htable
    rw [← hsame.viewers] at hconsistent
    exact ⟨hconsistent, hfollows.trans (.of_seats (.of_viewers hsame.viewers) _)⟩
  | hello _ _ h =>
    cases h with
    | back hcleared _ _ h =>
      exact ⟨h.table, (hcleared.follows htable).2.trans (h.follows _)⟩
    | new hcleared _ _ h =>
      obtain ⟨hconsistent, hfollows⟩ := hcleared.follows htable
      obtain ⟨hconsistent', hfollows'⟩ := h.follows hconsistent
      exact ⟨hconsistent', hfollows.trans hfollows'⟩

end ScreenHostSession

/-! ## All sessions of a host -/

variable {ι : Type}

/-- The sessions of a host, with the budget that they share. -/
structure ScreenHosts (ι : Type) where
  sessions : ι → ScreenHostSession
  budget : Option ViewerBudget

namespace ScreenHosts

def init : ScreenHosts ι := { sessions := fun _ => {}, budget := some {} }

/-- What a table publishes lists its viewers: all of them, or the first where there is less room. -/
structure Listed (t : ViewerTable) : Prop where
  addrs : ∀ room, t.snapshotAddrs room = (t.activeSlots.map ViewerSlot.addrPacked).take room
  audioAddrs : ∀ room, t.snapshotAudioAddrs room =
    ((t.activeSlots.filter ViewerSlot.wantsAudio).map ViewerSlot.addrPacked).take room
  infos : ∀ room, t.snapshotInfos room =
    (t.activeSlots.map fun s => ⟨s.addrPacked, s.name⟩).take room
  viewerCount : t.viewerCount = t.activeSlots.length

/-- A call of one of the sessions. -/
def step [DecidableEq ι] (s : ScreenHosts ι) (i : ι) (call : ScreenHostCall) :
    ScreenHosts ι × List ScreenHostEvent :=
  let result := (s.sessions i).call s.budget call
  ({ sessions := Function.update s.sessions i result.session, budget := result.budget },
    result.events)

variable [Fintype ι]

/-- The tables are in order, and the budget counts the viewers of all of them. -/
structure Sound (s : ScreenHosts ι) : Prop where
  apart : ∀ i, (s.sessions i).viewers.Apart
  counted : ∀ i, (s.sessions i).viewers.count = (s.sessions i).viewers.activeIds.length
  listed : ∀ i, Listed (s.sessions i).viewers
  places : ∃ b, s.budget = some b ∧ b.taken = ∑ i, (s.sessions i).viewers.count ∧
    b.taken ≤ kMaxViewersPerHost

/-- The tables are consistent, and the budget counts the viewers of all of them. -/
structure Inv (s : ScreenHosts ι) : Prop where
  table : ∀ i, (s.sessions i).viewers.Consistent
  places : ∃ b, s.budget = some b ∧ b.taken = ∑ i, (s.sessions i).viewers.count ∧
    b.taken ≤ kMaxViewersPerHost

theorem Inv.sound {s : ScreenHosts ι} (h : Inv s) : Sound s where
  apart i := (h.table i).toApart
  counted i := (h.table i).counted
  listed i := ⟨(h.table i).snapshotAddrs, (h.table i).snapshotAudioAddrs,
    (h.table i).snapshotInfos, (h.table i).viewerCount⟩
  places := h.places

theorem inv_init : Inv (init : ScreenHosts ι) where
  table _ := ViewerTable.Consistent.init
  places := ⟨{}, rfl, by simp [init], Nat.zero_le _⟩

variable [DecidableEq ι]

theorem sum_update (f : ι → Nat) (i : ι) (n : Nat) :
    ∑ j, Function.update f i n j + f i = ∑ j, f j + n := by
  have hnew := Finset.sum_update_of_mem (Finset.mem_univ i) f n
  have hold := Finset.sum_update_of_mem (Finset.mem_univ i) f (f i)
  rw [Function.update_eq_self] at hold
  omega

/-- A call of one session, as the other sessions and the budget see it. -/
theorem Inv.step {s : ScreenHosts ι} (h : Inv s) (i : ι) (call : ScreenHostCall) :
    Inv (s.step i call).1 ∧ ∀ j, (s.sessions j).Later ((s.step i call).1.sessions j) := by
  obtain ⟨b, hb, hsum, hmax⟩ := h.places
  obtain ⟨hconsistent, hfollows⟩ :=
    (ScreenHostSession.call_spec (h.table i) s.budget call).follows (h.table i)
  have hsession : ∀ j, (s.step i call).1.sessions j =
      if j = i then ((s.sessions i).call s.budget call).session else s.sessions j :=
    fun j => Function.update_apply s.sessions i _ j
  refine ⟨⟨?_, ?_⟩, ?_⟩
  · intro j
    rw [hsession]
    by_cases hj : j = i
    · rw [if_pos hj]
      exact hconsistent
    · rw [if_neg hj]
      exact h.table j
  · have hle : (s.sessions i).viewers.count ≤ b.taken := by
      rw [hsum]
      exact Finset.single_le_sum (f := fun j => (s.sessions j).viewers.count)
        (fun _ _ => Nat.zero_le _) (Finset.mem_univ i)
    obtain ⟨b', hb', hplaces, hmax'⟩ := hfollows.places b hb hle
    refine ⟨b', hb', ?_, hmax' hmax⟩
    have hcounts : (fun j => ((s.step i call).1.sessions j).viewers.count) =
        Function.update (fun j => (s.sessions j).viewers.count) i
          ((s.sessions i).call s.budget call).session.viewers.count := by
      funext j
      rw [hsession, Function.update_apply]
      by_cases hj : j = i
      · rw [if_pos hj, if_pos hj]
      · rw [if_neg hj, if_neg hj]
    have hupdate := sum_update (fun j => (s.sessions j).viewers.count) i
      ((s.sessions i).call s.budget call).session.viewers.count
    rw [← hcounts] at hupdate
    dsimp only at hupdate
    omega
  · intro j
    by_cases hj : j = i
    · subst hj
      have hself := hsession j
      rw [if_pos rfl] at hself
      rw [hself]
      exact hfollows.later
    · have hother := hsession j
      rw [if_neg hj] at hother
      rw [hother]
      exact .of_seats (.refl _)

end ScreenHosts

/-- The sessions of a host as a machine: a call of one of them after the other. -/
def screenHosts (ι : Type) [DecidableEq ι] :
    Machine (ScreenHosts ι) (ι × ScreenHostCall) ScreenHostEvent where
  step s a := s.step a.1 a.2

namespace ScreenHosts

variable [Fintype ι] [DecidableEq ι]

theorem Inv.run {s : ScreenHosts ι} (h : Inv s) (calls : List (ι × ScreenHostCall)) :
    Inv ((screenHosts ι).run s calls).1 ∧
      ∀ j, (s.sessions j).Later (((screenHosts ι).run s calls).1.sessions j) := by
  induction calls generalizing s with
  | nil => exact ⟨h, fun j => .of_seats (.refl _)⟩
  | cons a calls ih =>
    obtain ⟨hnext, hfirst⟩ := h.step a.1 a.2
    obtain ⟨hend, hrest⟩ := ih hnext
    rw [Machine.run_cons]
    exact ⟨hend, fun j => (hfirst j).trans (hrest j)⟩

/-- After every call the sessions and the budget are sound; and a viewer that was not there at
some point of the run joins after all that were there up to then. -/
theorem screenHosts_sound (first second third : List (ι × ScreenHostCall)) :
    let s₁ := ((screenHosts ι).run init first).1
    let s₂ := ((screenHosts ι).run init (first ++ second)).1
    let s₃ := ((screenHosts ι).run init (first ++ second ++ third)).1
    s₃.Sound ∧
      ∀ i k, ((s₃.sessions i).slot k).active = true →
        (((s₂.sessions i).slot k).active = true ∧
          ((s₃.sessions i).slot k).joinOrder = ((s₂.sessions i).slot k).joinOrder) ∨
        ∀ j, ((s₁.sessions i).slot j).active = true →
          ((s₁.sessions i).slot j).joinOrder < ((s₃.sessions i).slot k).joinOrder := by
  intro s₁ s₂ s₃
  have hs₁ : s₁.Inv := (inv_init.run first).1
  have hrun₂ : s₂ = ((screenHosts ι).run s₁ second).1 := by
    change ((screenHosts ι).run init (first ++ second)).1 = _
    rw [Machine.run_append]
  have hrun₃ : s₃ = ((screenHosts ι).run s₂ third).1 := by
    change ((screenHosts ι).run init (first ++ second ++ third)).1 = _
    rw [Machine.run_append]
  obtain ⟨hs₂, hlater⟩ := hs₁.run second
  rw [← hrun₂] at hs₂ hlater
  obtain ⟨hs₃, hseated⟩ := hs₂.run third
  rw [← hrun₃] at hs₃ hseated
  refine ⟨hs₃.sound, ?_⟩
  intro i k hk
  rcases (hseated i).seated k hk with hthere | hnew
  · exact .inl hthere
  · right
    intro j hj
    exact ((hs₁.table i).order_lt j hj).trans_le ((hlater i).nextJoinOrder.trans hnew)

end ScreenHosts

end Deskhub
