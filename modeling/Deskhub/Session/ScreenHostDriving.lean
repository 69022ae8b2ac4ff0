import Deskhub.Session.ScreenHostControl

/-!
# Earlier viewers come first

While a viewer drives, the input of those that joined after it is not passed on.
-/

namespace Deskhub

/-- The time a call is made at, where it has one. -/
def ScreenHostCall.timeOf : ScreenHostCall → Option UInt64
  | .handlePacket _ nowUs _ _ | .tick nowUs => some nowUs
  | _ => none

def ViewerHostEvent.timeOf : ViewerHostEvent → Option UInt64
  | .call c => c.timeOf
  | _ => none

namespace ScreenHostSession

theorem messageOf_time {s : ScreenHostSession} {call : ScreenHostCall} {msg : ViewerMessage}
    (h : s.messageOf call = some msg) : call.timeOf = some msg.nowUs := by
  unfold messageOf at h
  split at h
  · split at h
    · cases h
    · split at h
      · cases h
      · obtain ⟨i, -, rfl⟩ := Option.map_eq_some_iff.mp h
        rfl
  · cases h

theorem appliedBy_message {s : ScreenHostSession} {call : ScreenHostCall} {i : SlotId}
    (h : s.appliedBy call = some i) :
    ∃ msg, s.messageOf call = some msg ∧ msg.slot = i ∧ msg.type = .inputEvent ∧
      s.state = .streaming ∧ s.viewers.higherPriorityIsDriving i msg.nowUs = false := by
  unfold appliedBy at h
  split at h
  · cases h
  · next msg hmsg =>
    split at h
    · next hall =>
      cases h
      exact ⟨msg, hmsg, rfl, hall⟩
    · cases h

/-! ## When a viewer was last heard to drive -/

/-- The input of a viewer that is applied is noted with its time. -/
theorem FromViewer.noted {s s' : ScreenHostSession} {msg : ViewerMessage}
    {out : List ScreenHostEvent}
    (h : FromViewer (s.seen msg.slot msg.nowUs) msg.slot msg.type msg.payload msg.nowUs s' out)
    (htype : msg.type = .inputEvent) (hstreaming : s.state = .streaming)
    (hdriven : s.viewers.higherPriorityIsDriving msg.slot msg.nowUs = false) :
    (s'.slot msg.slot).lastInputUs = msg.nowUs := by
  cases h with
  | undisturbed hinput _ => exact absurd hstreaming (hinput htype)
  | started hstart _ =>
    rw [htype] at hstart
    cases hstart
  | denied _ _ hdenied =>
    rw [higherPriority_seen, hdriven] at hdenied
    cases hdenied
  | applied _ _ _ =>
    unfold ScreenHostSession.applied
    rw [show ∀ (t : ScreenHostSession) (a : UInt64),
      ({ t with controllingAddr := a } : ScreenHostSession).slot msg.slot = t.slot msg.slot
      from fun _ _ => rfl, slot_setSlot_self]
  | released hfocus _ _ _ =>
    rw [htype] at hfocus
    cases hfocus

/-- A message leaves the time of a viewer's input, or sets it to now. -/
theorem FromViewer.lastInput {s s' : ScreenHostSession} {i : SlotId} {type : MsgType}
    {payload : Bytes} {nowUs : UInt64} {out : List ScreenHostEvent}
    (h : FromViewer s i type payload nowUs s' out) (j : SlotId)
    (hfocus : ¬ (i = j ∧ type = .setFocus ∧ s.state = .streaming ∧
      parseSetFocus payload = some false)) :
    (s'.slot j).lastInputUs = (s.slot j).lastInputUs ∨ (s'.slot j).lastInputUs = nowUs := by
  have hwrite : ∀ {t : ScreenHostSession} {slot : ViewerSlot},
      t.viewers = s.viewers.setSlot i slot →
      (i = j → slot.lastInputUs = (s.slot i).lastInputUs ∨ slot.lastInputUs = nowUs) →
      (t.slot j).lastInputUs = (s.slot j).lastInputUs ∨ (t.slot j).lastInputUs = nowUs := by
    intro t slot hviewers hslot
    have hj : t.slot j = if j = i then slot else s.slot j := by
      change t.viewers.slots j = _
      rw [hviewers]
      exact ViewerTable.setSlot_slots s.viewers i j slot
    rw [hj]
    by_cases hji : j = i
    · rw [if_pos hji, hji]
      exact hslot hji.symm
    · rw [if_neg hji]
      exact .inl rfl
  cases h with
  | undisturbed _ h =>
    obtain ⟨after, hseat, hviewers⟩ := h.slot
    exact hwrite hviewers fun _ => .inl hseat.lastInputUs
  | started _ _ => exact hwrite rfl fun _ => .inl rfl
  | denied _ _ _ => exact hwrite rfl fun _ => .inl rfl
  | applied _ _ _ => exact hwrite rfl fun _ => .inr rfl
  | released htype hstreaming hparse _ =>
    exact hwrite rfl fun hij => absurd ⟨hij, htype, hstreaming, hparse⟩ hfocus

/-- A viewer that stays keeps its slot as it is while others are dropped. -/
theorem Drops.kept {s : ScreenHostSession} {b : Option ViewerBudget} {c : HostCall}
    (h : Drops s b c) {j : SlotId} (hactive : (c.session.slot j).active = true) :
    c.session.slot j = s.slot j := by
  induction h with
  | none => rfl
  | more _ _ hdropped ih =>
    obtain ⟨hji, hbefore⟩ := hdropped.left j hactive
    rw [hdropped.kept j hji hbefore]
    exact ih hbefore

theorem Cleared.kept_slot {s : ScreenHostSession} {b : Option ViewerBudget} {m : Hello}
    {fromPacked : UInt64} {c : HostCall} (h : Cleared s b m fromPacked c) {j : SlotId}
    (hactive : (c.session.slot j).active = true) : c.session.slot j = s.slot j := by
  cases h with
  | kept _ => rfl
  | dropped _ _ _ hdropped =>
    obtain ⟨hji, hbefore⟩ := hdropped.left j hactive
    exact hdropped.kept j hji hbefore

/-- A call leaves the time of the input of a viewer that was there, or sets it to now. -/
theorem Called.lastInput {s : ScreenHostSession} {b : Option ViewerBudget} {call : ScreenHostCall}
    {c : HostCall} (h : Called s b call c) (htable : s.viewers.Consistent) {j : SlotId}
    (hafter : (c.session.slot j).active = true)
    (hold : (c.session.slot j).joinOrder < s.viewers.nextJoinOrder)
    (hfocus : s.givenUpBy call ≠ some j) :
    (c.session.slot j).lastInputUs = (s.slot j).lastInputUs ∨
      ∃ t, call.timeOf = some t ∧ (c.session.slot j).lastInputUs = t := by
  cases h with
  | @message msg s' out hmsg _ h =>
    have hseen : ((s.seen msg.slot msg.nowUs).slot j).lastInputUs = (s.slot j).lastInputUs := by
      rw [slot_seen]
      by_cases hji : j = msg.slot
      · rw [if_pos hji, hji]
      · rw [if_neg hji]
    have hother : ¬ (msg.slot = j ∧ msg.type = .setFocus ∧ s.state = .streaming ∧
        parseSetFocus msg.payload = some false) := by
      rintro ⟨hj, hall⟩
      rw [givenUpBy_of_message hmsg, if_pos hall, hj] at hfocus
      exact hfocus rfl
    rcases h.lastInput j hother with hsame | hnow
    · exact .inl (hsame.trans hseen)
    · exact .inr ⟨_, messageOf_time hmsg, hnow⟩
  | @left c s' before after _ _ h hsame _ _ =>
    have hslot : s'.slot j = c.session.slot j := congrFun (congrArg ViewerTable.slots hsame.viewers) j
    left
    change (s'.slot j).active = true at hafter
    rw [hslot] at hafter
    exact congrArg ViewerSlot.lastInputUs (hslot.trans (h.kept hafter))
  | hello _ _ h =>
    left
    cases h with
    | @back c i s' out hcleared _ _ h =>
      have hseats := h.seats j
      have hslot := hcleared.kept_slot (hseats.1.symm.trans hafter)
      exact hseats.2.2.2.2.trans (congrArg ViewerSlot.lastInputUs hslot)
    | @new c d hcleared _ _ h =>
      obtain ⟨hconsistent, hfollows⟩ := hcleared.follows htable
      have hnext := hfollows.later.nextJoinOrder
      cases h with
      | noSession _ _ => exact congrArg ViewerSlot.lastInputUs (hcleared.kept_slot hafter)
      | busy _ _ => exact congrArg ViewerSlot.lastInputUs (hcleared.kept_slot hafter)
      | @admitted i d h =>
        -- a viewer that was there is not the one that is let in
        have hji : j ≠ i := by
          rintro rfl
          have horder : (d.session.slot j).joinOrder = c.session.viewers.nextJoinOrder := by
            rw [h.slot_eq, if_pos rfl]
            rfl
          change (d.session.slot j).joinOrder < s.viewers.nextJoinOrder at hold
          omega
        have hslot := h.slot_eq j
        rw [if_neg hji] at hslot
        change (d.session.slot j).active = true at hafter
        rw [hslot] at hafter
        exact congrArg ViewerSlot.lastInputUs (hslot.trans (hcleared.kept_slot hafter))

/-! ## Which calls pass input on -/

/-- No input is passed on. -/
def NoInput (out : List ScreenHostEvent) : Prop := ∀ ev, ScreenHostEvent.input ev ∉ out

theorem NoInput.of_quiet {out : List ScreenHostEvent} (h : ∀ e ∈ out, e.quiet = true) :
    NoInput out := by
  intro ev hmem
  cases h _ hmem

theorem NoInput.append {out out' : List ScreenHostEvent} (h : NoInput out) (h' : NoInput out') :
    NoInput (out ++ out') := by
  intro ev hmem
  exact (List.mem_append.mp hmem).elim (h ev) (h' ev)

theorem Dropped.noInput {s : ScreenHostSession} {b : Option ViewerBudget} {i : SlotId}
    {c : HostCall} (h : Dropped s b i c) : NoInput c.events := by
  intro ev hmem
  rw [h.events] at hmem
  rcases List.mem_append.mp hmem with hfront | hended
  · rcases List.mem_append.mp hfront with hleft | hcontrol
    · cases List.mem_singleton.mp hleft
    · split at hcontrol
      · cases hcontrol
      · cases List.mem_singleton.mp hcontrol
  · split at hended
    · cases List.mem_singleton.mp hended
    · cases hended

theorem Drops.noInput {s : ScreenHostSession} {b : Option ViewerBudget} {c : HostCall}
    (h : Drops s b c) : NoInput c.events := by
  induction h with
  | none => nofun
  | more _ _ hdropped ih => exact ih.append hdropped.noInput

theorem Cleared.noInput {s : ScreenHostSession} {b : Option ViewerBudget} {m : Hello}
    {fromPacked : UInt64} {c : HostCall} (h : Cleared s b m fromPacked c) : NoInput c.events := by
  cases h with
  | kept _ => nofun
  | dropped _ _ _ hdropped => exact hdropped.noInput

theorem Welcomed.noInput {s : ScreenHostSession} {b : Option ViewerBudget} {m : Hello}
    {nowUs fromPacked : UInt64} {random : Option UInt32} {c : HostCall}
    (h : Welcomed s b m nowUs fromPacked random c) : NoInput c.events := by
  cases h with
  | noSession _ _ => exact .of_quiet (sendReject_quiet _)
  | busy _ _ => exact .of_quiet (sendReject_quiet _)
  | admitted h =>
    intro ev hmem
    rcases h.events _ hmem with hquiet | ⟨n, hjoin⟩
    · cases hquiet
    · cases hjoin

/-- Input that is passed on comes from a viewer for whom nobody of higher priority is driving. -/
theorem Called.input {s : ScreenHostSession} {b : Option ViewerBudget} {call : ScreenHostCall}
    {c : HostCall} (h : Called s b call c) {ev : InputEvent} (hmem : .input ev ∈ c.events) :
    ∃ msg, s.messageOf call = some msg ∧
      s.viewers.higherPriorityIsDriving msg.slot msg.nowUs = false := by
  have hnever : ∀ {p : Prop}, NoInput c.events → p := fun hno => absurd hmem (hno ev)
  cases h with
  | @message msg s' out hmsg _ h =>
    cases h with
    | undisturbed _ h => exact hnever (.of_quiet h.events)
    | started _ hout => exact hnever (.of_quiet hout)
    | denied _ _ _ => exact hnever nofun
    | applied _ _ hdriven =>
      rw [higherPriority_seen] at hdriven
      exact ⟨msg, hmsg, hdriven⟩
    | released _ _ _ _ =>
      refine hnever ?_
      intro ev' hmem'
      rcases List.mem_append.mp hmem' with hcontrol | hfocus
      · split at hcontrol
        · cases hcontrol
        · cases List.mem_singleton.mp hcontrol
      · cases List.mem_singleton.mp hfocus
  | left before after _ _ h _ hbefore hafter =>
    exact hnever (((NoInput.of_quiet hbefore).append h.noInput).append (.of_quiet hafter))
  | hello _ _ h =>
    cases h with
    | back hcleared _ _ h => exact hnever (hcleared.noInput.append (.of_quiet h.events))
    | new hcleared _ _ h => exact hnever (hcleared.noInput.append h.noInput)

/-- While the viewer of a slot drives, those that joined after it have no say. -/
theorem joinOrder_le_of_driving {s : ScreenHostSession} {i j : SlotId} {nowUs : UInt64}
    (hdriving : isDriving (s.slot i) nowUs = true)
    (hfree : s.viewers.higherPriorityIsDriving j nowUs = false) :
    (s.slot j).joinOrder ≤ (s.slot i).joinOrder := by
  by_contra hlater
  have hlt : (s.viewers.slots i).joinOrder < (s.viewers.slots j).joinOrder := Nat.lt_of_not_le hlater
  have hne : i ≠ j := by
    rintro rfl
    exact Nat.lt_irrefl _ hlt
  have hany : s.viewers.higherPriorityIsDriving j nowUs = true := by
    unfold ViewerTable.higherPriorityIsDriving
    refine List.any_eq_true.mpr ⟨i, List.mem_finRange i, ?_⟩
    rw [show isDriving (s.viewers.slots i) nowUs = true from hdriving]
    simp [hne, hlt]
  rw [hfree] at hany
  cases hany

end ScreenHostSession

namespace ViewerHost

theorem later_step {w : ViewerHost} (h : Fair w) (e : ViewerHostEvent) :
    w.session.Later (viewerHost.step w e).1.session := by
  cases e with
  | call c =>
    exact ((ScreenHostSession.call_spec h.table w.budget c).follows h.table).2.later
  | takeElsewhere =>
    change w.session.Later w.takeElsewhere.session
    rw [WatchedHost.session_takeElsewhere]
    exact .of_seats (.refl _)
  | giveElsewhere =>
    change w.session.Later w.giveElsewhere.session
    rw [WatchedHost.session_giveElsewhere]
    exact .of_seats (.refl _)

theorem later_run {w : ViewerHost} (h : Fair w) (events : List ViewerHostEvent) :
    w.session.Later (viewerHost.run w events).1.session := by
  induction events generalizing w with
  | nil => exact .of_seats (.refl _)
  | cons e events ih =>
    rw [Machine.run_cons]
    exact (later_step h e).trans (ih (h.step e))

/-- A viewer does not say that it has lost the focus. -/
def KeepsFocus (u : Nat) (w : ViewerHost) : ViewerHostEvent → Prop
  | .call c => ∀ i, w.session.givenUpBy c = some i → (w.session.slot i).joinOrder ≠ u
  | _ => True

/-- A step leaves the time of the input of a viewer that stays, or sets it to now. -/
theorem lastInput_step {w : ViewerHost} (h : Fair w) {i : SlotId} {u : Nat}
    (hbefore : (w.session.slot i).active = true ∧ (w.session.slot i).joinOrder = u)
    {e : ViewerHostEvent}
    (hafter : ((viewerHost.step w e).1.session.slot i).active = true ∧
      ((viewerHost.step w e).1.session.slot i).joinOrder = u) (hkeeps : KeepsFocus u w e) :
    ((viewerHost.step w e).1.session.slot i).lastInputUs = (w.session.slot i).lastInputUs ∨
      ∃ t, e.timeOf = some t ∧ ((viewerHost.step w e).1.session.slot i).lastInputUs = t := by
  cases e with
  | call c =>
    refine (ScreenHostSession.call_spec h.table w.budget c).lastInput h.table hafter.1 ?_ ?_
    · have hlt := h.table.order_lt i hbefore.1
      rw [show (w.session.viewers.slots i).joinOrder = u from hbefore.2, ← hafter.2] at hlt
      exact hlt
    · exact fun hgiven => hkeeps i hgiven hbefore.2
  | takeElsewhere =>
    left
    change (w.takeElsewhere.session.slot i).lastInputUs = _
    rw [WatchedHost.session_takeElsewhere]
  | giveElsewhere =>
    left
    change (w.giveElsewhere.session.slot i).lastInputUs = _
    rw [WatchedHost.session_giveElsewhere]

/-- An event passes input on only of viewers that did not join after `u`. -/
def PassesOnUpTo (u : Nat) (w : ViewerHost) (e : ViewerHostEvent) : Prop :=
  ∀ ev, ScreenHostEvent.input ev ∈ (viewerHost.step w e).2 →
    ∃ c msg, e = .call c ∧ w.session.messageOf c = some msg ∧
      (w.session.slot msg.slot).joinOrder ≤ u

/-- While the time of the last input of a viewer is less than the hold away, it drives. -/
theorem isDriving_of_hold {slot : ViewerSlot} {t₁ now t₂ : UInt64} (hactive : slot.active = true)
    (hpos : 0 < t₁) (hsince : t₁ ≤ slot.lastInputUs) (hnow : slot.lastInputUs ≤ now)
    (hend : now ≤ t₂) (hhold : t₂ - t₁ ≤ kInputControlHoldUs) : isDriving slot now = true := by
  have hne : slot.lastInputUs ≠ 0 := by
    intro hzero
    rw [hzero] at hsince
    exact UInt64.lt_irrefl _ (UInt64.lt_of_lt_of_le hpos hsince)
  have hle : now - slot.lastInputUs ≤ t₂ - t₁ := by
    have hall : t₁ ≤ t₂ := UInt64.le_trans hsince (UInt64.le_trans hnow hend)
    rw [UInt64.le_iff_toNat_le] at hsince hnow hend ⊢
    rw [UInt64.toNat_sub_of_le _ _ (UInt64.le_iff_toNat_le.mpr hnow),
      UInt64.toNat_sub_of_le _ _ hall]
    omega
  unfold isDriving
  simp [hactive, hne, UInt64.le_trans hle hhold]

theorem passesOnUpTo_of_drives {w : ViewerHost} (h : Fair w) {i : SlotId} {e : ViewerHostEvent}
    {t₁ t₂ : UInt64} (hactive : (w.session.slot i).active = true) (hpos : 0 < t₁)
    (hsince : t₁ ≤ (w.session.slot i).lastInputUs)
    (hnow : ∀ t, e.timeOf = some t → (w.session.slot i).lastInputUs ≤ t ∧ t ≤ t₂)
    (hhold : t₂ - t₁ ≤ kInputControlHoldUs) :
    PassesOnUpTo (w.session.slot i).joinOrder w e := by
  intro ev hev
  cases e with
  | takeElsewhere => cases hev
  | giveElsewhere => cases hev
  | call c =>
    obtain ⟨msg, hmsg, hfree⟩ :=
      (ScreenHostSession.call_spec h.table w.budget c).input hev
    refine ⟨c, msg, rfl, hmsg, ?_⟩
    obtain ⟨hlast, hend⟩ := hnow msg.nowUs (ScreenHostSession.messageOf_time hmsg)
    exact ScreenHostSession.joinOrder_le_of_driving
      (isDriving_of_hold hactive hpos hsince hlast hend hhold) hfree

/-- As long as a viewer is there, was last heard to drive at or after `t₁` and keeps the focus,
nobody that joined after it is passed on up to the end of the hold. -/
theorem passesOnUpTo_run {w : ViewerHost} (h : Fair w) {i : SlotId} {u : Nat} {t₁ t₂ : UInt64}
    (hpos : 0 < t₁) (hhold : t₂ - t₁ ≤ kInputControlHoldUs) {mid : List ViewerHostEvent}
    (hthere : ∀ a b, mid = a ++ b → ((viewerHost.run w a).1.session.slot i).active = true ∧
      ((viewerHost.run w a).1.session.slot i).joinOrder = u)
    (hsince : t₁ ≤ (w.session.slot i).lastInputUs)
    (htimes : ∀ t ∈ mid.filterMap ViewerHostEvent.timeOf,
      (w.session.slot i).lastInputUs ≤ t ∧ t ≤ t₂)
    (hsorted : (mid.filterMap ViewerHostEvent.timeOf).Pairwise (· ≤ ·))
    (hkeeps : viewerHost.Along (fun w _ e => KeepsFocus u w e) w mid) :
    viewerHost.Along (fun w _ e => PassesOnUpTo u w e) w mid := by
  induction mid generalizing w with
  | nil =>
    intro pre e post hsplit
    cases pre with
    | nil => cases hsplit
    | cons _ _ => cases hsplit
  | cons e mid ih =>
    have hbefore : (w.session.slot i).active = true ∧ (w.session.slot i).joinOrder = u :=
      hthere [] (e :: mid) rfl
    have hafter : ((viewerHost.step w e).1.session.slot i).active = true ∧
        ((viewerHost.step w e).1.session.slot i).joinOrder = u := hthere [e] mid rfl
    have hfirst : PassesOnUpTo u w e := by
      have hpasses := passesOnUpTo_of_drives (e := e) h hbefore.1 hpos hsince
        (fun t ht => htimes t (List.mem_filterMap.mpr ⟨e, List.mem_cons_self, ht⟩)) hhold
      rw [hbefore.2] at hpasses
      exact hpasses
    have hstep := lastInput_step h hbefore hafter (hkeeps [] e mid rfl)
    have hrest := ih (h.step e) (fun a b hsplit => hthere (e :: a) b (by rw [hsplit]; rfl)) ?_ ?_ ?_ ?_
    · intro pre e' post hsplit
      cases pre with
      | nil =>
        cases hsplit
        exact hfirst
      | cons e₀ pre =>
        rw [List.cons_append, List.cons.injEq] at hsplit
        obtain ⟨rfl, hsplit⟩ := hsplit
        exact hrest pre e' post hsplit
    · rcases hstep with hsame | ⟨t, ht, hnow⟩
      · rw [hsame]
        exact hsince
      · rw [hnow]
        exact UInt64.le_trans hsince
          (htimes t (List.mem_filterMap.mpr ⟨e, List.mem_cons_self, ht⟩)).1
    · intro t' ht'
      have hmem : t' ∈ (e :: mid).filterMap ViewerHostEvent.timeOf := by
        obtain ⟨e', he', ht'⟩ := List.mem_filterMap.mp ht'
        exact List.mem_filterMap.mpr ⟨e', List.mem_cons_of_mem e he', ht'⟩
      refine ⟨?_, (htimes t' hmem).2⟩
      rcases hstep with hsame | ⟨t, ht, hnow⟩
      · rw [hsame]
        exact (htimes t' hmem).1
      · rw [hnow]
        rw [List.filterMap_cons_some ht] at hsorted
        exact List.rel_of_pairwise_cons hsorted ht'
    · cases ht : e.timeOf with
      | none =>
        rw [List.filterMap_cons_none ht] at hsorted
        exact hsorted
      | some t =>
        rw [List.filterMap_cons_some ht] at hsorted
        exact hsorted.of_cons
    · intro pre e' post hsplit
      exact hkeeps (e :: pre) e' post (by rw [hsplit]; rfl)

/-- A clock that does not start at zero and does not go back. -/
def ClockRuns (events : List ViewerHostEvent) : Prop :=
  (events.filterMap ViewerHostEvent.timeOf).Pairwise (· ≤ ·) ∧
    ∀ t ∈ events.filterMap ViewerHostEvent.timeOf, 0 < t

/-- Between two input datagrams of a viewer that are applied within the hold, no input of a
viewer that joined after it is passed on. -/
theorem earlier_keeps_control (shared : Bool) (pre mid : List ViewerHostEvent)
    (first second : ScreenHostCall) (t₁ t₂ : UInt64) (i₁ i₂ : SlotId) :
    let before := (viewerHost.run (init shared) pre).1
    let after := (viewerHost.run (init shared) (pre ++ [.call first])).1
    let last := (viewerHost.run after mid).1
    ClockRuns (pre ++ [.call first] ++ mid ++ [.call second]) →
    first.timeOf = some t₁ → second.timeOf = some t₂ → t₂ - t₁ ≤ kInputControlHoldUs →
    before.session.appliedBy first = some i₁ → last.session.appliedBy second = some i₂ →
    (last.session.slot i₂).joinOrder = (before.session.slot i₁).joinOrder →
    viewerHost.Along (fun w _ e => KeepsFocus (before.session.slot i₁).joinOrder w e) after mid →
    viewerHost.Along (fun w _ e => PassesOnUpTo (before.session.slot i₁).joinOrder w e) after mid := by
  intro before after last hclock ht₁ ht₂ hhold hfirst hsecond hsame hkeeps
  have hfair : before.Fair := (fair_init shared).run pre
  have hafter : after = (viewerHost.step before (.call first)).1 := by
    change (viewerHost.run (init shared) (pre ++ [.call first])).1 = _
    rw [Machine.run_concat]
  have hfairAfter : after.Fair := (fair_init shared).run (pre ++ [.call first])
  generalize hu : (before.session.slot i₁).joinOrder = u at hsame hkeeps ⊢
  -- the first datagram is noted in the slot of its viewer
  obtain ⟨msg, hmsg, rfl, htype, hstreaming, hdriven⟩ :=
    ScreenHostSession.appliedBy_message hfirst
  have hnow : msg.nowUs = t₁ := by
    have htime := ScreenHostSession.messageOf_time hmsg
    rw [ht₁] at htime
    exact (Option.some.inj htime).symm
  have hactive := ScreenHostSession.messageOf_active hmsg
  have hnoted : (after.session.slot msg.slot).lastInputUs = t₁ := by
    have hspec := ScreenHostSession.call_spec hfair.table before.budget first
    rw [hafter]
    change ((before.session.call before.budget first).session.slot msg.slot).lastInputUs = t₁
    generalize before.session.call before.budget first = c at hspec
    cases hspec with
    | message hmsg' _ h =>
      cases hmsg.symm.trans hmsg'
      exact (h.noted htype hstreaming hdriven).trans hnow
    | left _ _ hbye _ _ _ _ _ =>
      have hboth := hbye msg hmsg
      rw [htype] at hboth
      cases hboth
    | hello hnone _ _ =>
      rw [hmsg] at hnone
      cases hnone
  have hold : u < before.session.viewers.nextJoinOrder := by
    rw [← hu]
    exact hfair.table.order_lt msg.slot hactive
  -- the viewer of the second datagram has been in its slot all along
  obtain ⟨msg₂, hmsg₂, rfl, -⟩ := ScreenHostSession.appliedBy_message hsecond
  have hlastActive := ScreenHostSession.messageOf_active hmsg₂
  have hbefore : before.session.Later after.session := by
    rw [hafter]
    exact later_step hfair _
  have hthere : ∀ a b, mid = a ++ b →
      ((viewerHost.run after a).1.session.slot msg₂.slot).active = true ∧
        ((viewerHost.run after a).1.session.slot msg₂.slot).joinOrder = u := by
    intro a b hsplit
    have hlast : last = (viewerHost.run (viewerHost.run after a).1 b).1 := by
      change (viewerHost.run after mid).1 = _
      rw [hsplit, Machine.run_append]
    have hlater := later_run (hfairAfter.run a) b
    rw [← hlast] at hlater
    rcases hlater.seated msg₂.slot hlastActive with ⟨hthere, horder⟩ | hnew
    · exact ⟨hthere, horder.symm.trans hsame⟩
    · have hnext := (later_run hfairAfter a).nextJoinOrder
      have hnext' := hbefore.nextJoinOrder
      omega
  have hslot : msg₂.slot = msg.slot := by
    obtain ⟨hactiveAfter, horderAfter⟩ := hthere [] mid rfl
    rcases hbefore.seated msg₂.slot hactiveAfter with ⟨hbeforeActive, horder⟩ | hnew
    · refine hfair.table.order_inj msg₂.slot msg.slot hbeforeActive hactive ?_
      exact (horder.symm.trans horderAfter).trans hu.symm
    · rw [show (after.session.slot msg₂.slot).joinOrder = u from horderAfter] at hnew
      omega
  -- the times of the clock
  obtain ⟨hsorted, hpos⟩ := hclock
  rw [List.filterMap_append, List.filterMap_append, List.filterMap_append] at hsorted hpos
  rw [show [ViewerHostEvent.call first].filterMap ViewerHostEvent.timeOf = [t₁] by
      simp [ViewerHostEvent.timeOf, ht₁],
    show [ViewerHostEvent.call second].filterMap ViewerHostEvent.timeOf = [t₂] by
      simp [ViewerHostEvent.timeOf, ht₂]] at hsorted hpos
  have hsortedMid := (List.pairwise_append.mp hsorted)
  have hsortedFirst := List.pairwise_append.mp hsortedMid.1
  rw [hslot] at hthere
  refine passesOnUpTo_run hfairAfter (hpos t₁ (by simp)) hhold hthere ?_ ?_ hsortedFirst.2.1 hkeeps
  · exact hnoted ▸ UInt64.le_refl t₁
  · intro t ht
    rw [hnoted]
    exact ⟨hsortedFirst.2.2 t₁ (by simp) t ht,
      hsortedMid.2.2 t (List.mem_append_right _ ht) t₂ List.mem_cons_self⟩

/-- Clients 7 and 8 join and client 7 starts, at the times 1, 2 and 3. -/
def twoViewers : List ViewerHostEvent :=
  let hello (client : UInt8) : Bytes :=
    [3, 1, 0, 0, 0, 0, 0, 0, 0, 0, 0, client, 0, 0, 0, 0, 0, 0, 0, 0]
  [.call (.handlePacket (hello 7) 1 9 (some 5)), .call (.handlePacket (hello 8) 2 11 none),
    .call (.handlePacket [3, 3, 0, 0, 0, 0, 0, 5] 3 9 none)]

/-- A key of the viewer at an address. -/
def pressKey (seq : UInt8) (nowUs fromPacked : UInt64) : ScreenHostCall :=
  .handlePacket ([3, 32, 0, 2, 0, 0, 0, 5, 0, 0, 0, seq, 1] ++
    [1, 0, 0, 0, 0, 0, 0, 0, 0, 0, 0, 0, 30, 0, 0, 0, 0, 1, 0]) nowUs fromPacked none

/-- Client 8 presses a key between two of client 7. -/
theorem earlier_keeps_control_twoViewers :
    let before := (viewerHost.run (init false) twoViewers).1
    let after := (viewerHost.run (init false) (twoViewers ++ [.call (pressKey 1 4 9)])).1
    viewerHost.Along
      (fun w _ e => PassesOnUpTo (before.session.slot ⟨0, by decide⟩).joinOrder w e) after
      [.call (pressKey 1 5 11)] := by
  refine earlier_keeps_control false twoViewers [.call (pressKey 1 5 11)] (pressKey 1 4 9)
    (pressKey 2 6 9) 4 6 ⟨0, by decide⟩ ⟨0, by decide⟩ ?_ rfl rfl (by decide) (by decide +kernel)
    (by decide +kernel) (by decide +kernel) ?_
  · constructor
    · decide +kernel
    · -- the times are checked one by one, not all times there are
      have hall (times : List UInt64) (h : times.all (fun t => decide (0 < t)) = true) :
          ∀ t ∈ times, 0 < t := by
        intro t ht
        exact of_decide_eq_true (List.all_eq_true.mp h t ht)
      exact hall _ (by decide +kernel)
  · refine Machine.along_iff.mpr ⟨?_, trivial⟩
    intro i hgiven
    exact absurd hgiven (by revert i; decide +kernel)

end ViewerHost

end Deskhub
