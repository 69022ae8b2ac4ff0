import Deskhub.Session.ScreenHosts

/-!
# The state of a screen session

The state and the session id say whether there are viewers. They always agree with the table,
but for one case: a HELLO that begins a session and then finds no place in the budget leaves
the session id of a session without viewers. `stateAgrees_iff` says that this is the only one.
-/

namespace Deskhub

namespace ScreenHostSession

/-- The state and the session id agree with the viewers. -/
def StateAgrees (s : ScreenHostSession) : Prop :=
  (s.state = .idle ↔ ∀ i, (s.slot i).active = false) ∧
    (s.sessionId = 0 ↔ ∀ i, (s.slot i).active = false) ∧
    (s.state = .streaming ↔ ∃ i, (s.slot i).active = true ∧ (s.slot i).started = true)

/-- The same, as the handlers keep it. -/
structure Agrees (s : ScreenHostSession) : Prop where
  state : s.state = stateOf s.viewers
  sessionId : s.sessionId = 0 ↔ s.viewers.empty = true

theorem stateOf_idle {t : ViewerTable} : stateOf t = .idle ↔ t.empty = true := by
  unfold stateOf
  by_cases hempty : t.empty = true
  · rw [if_pos hempty]
    simp [hempty]
  · rw [if_neg hempty]
    by_cases hstarted : t.anyStarted = true
    · simp [hempty, hstarted]
    · simp [hempty, hstarted]

theorem stateOf_streaming {t : ViewerTable} (h : t.Consistent) :
    stateOf t = .streaming ↔ t.anyStarted = true := by
  unfold stateOf
  by_cases hempty : t.empty = true
  · have hnone : ¬ t.anyStarted = true := by
      intro hstarted
      obtain ⟨i, hactive, -⟩ := ViewerTable.anyStarted_iff.mp hstarted
      rw [h.empty_iff.mp hempty i] at hactive
      cases hactive
    rw [if_pos hempty]
    simp [hnone]
  · rw [if_neg hempty]
    by_cases hstarted : t.anyStarted = true
    · simp [hstarted]
    · simp [hstarted]

theorem Agrees.stateAgrees {s : ScreenHostSession} (h : Agrees s)
    (htable : s.viewers.Consistent) : StateAgrees s := by
  refine ⟨?_, h.sessionId.trans htable.empty_iff, ?_⟩
  · rw [h.state, stateOf_idle]
    exact htable.empty_iff
  · rw [h.state, stateOf_streaming htable]
    exact ViewerTable.anyStarted_iff

theorem not_empty {s : ScreenHostSession} (htable : s.viewers.Consistent) {i : SlotId}
    (hactive : (s.slot i).active = true) : ¬ s.viewers.empty = true := by
  intro hempty
  have hfree : (s.slot i).active = false := htable.empty_iff.mp hempty i
  rw [hactive] at hfree
  cases hfree

/-- The state goes with who is there and who has started. -/
theorem stateOf_congr {t t' : ViewerTable}
    (hslots : ∀ j, (t'.slots j).active = (t.slots j).active ∧
      (t'.slots j).started = (t.slots j).started) (hcount : t'.count = t.count) :
    stateOf t' = stateOf t := by
  have hempty : t'.empty = t.empty := by
    unfold ViewerTable.empty
    rw [hcount]
  have hstarted : t'.anyStarted = t.anyStarted := by
    unfold ViewerTable.anyStarted
    refine congrArg _ (funext fun j => ?_)
    rw [(hslots j).1, (hslots j).2]
  unfold stateOf
  rw [hempty, hstarted]

theorem Agrees.congr {s s' : ScreenHostSession} (h : Agrees s)
    (hslots : ∀ j, (s'.slot j).active = (s.slot j).active ∧
      (s'.slot j).started = (s.slot j).started)
    (hcount : s'.viewers.count = s.viewers.count) (hstate : s'.state = s.state)
    (hid : s'.sessionId = s.sessionId) : Agrees s' := by
  constructor
  · rw [hstate, h.state]
    exact (stateOf_congr hslots hcount).symm
  · unfold ViewerTable.empty
    rw [hid, hcount]
    exact h.sessionId

/-- A write to one slot that keeps whether its viewer is there and has started. -/
theorem Agrees.setSlot {s s' : ScreenHostSession} (h : Agrees s) {i : SlotId} {slot : ViewerSlot}
    (hviewers : s'.viewers = s.viewers.setSlot i slot)
    (hactive : slot.active = (s.slot i).active) (hstarted : slot.started = (s.slot i).started)
    (hstate : s'.state = s.state) (hid : s'.sessionId = s.sessionId) : Agrees s' := by
  refine h.congr ?_ ?_ hstate hid
  · intro j
    unfold ScreenHostSession.slot
    rw [hviewers, ViewerTable.setSlot_slots]
    by_cases hj : j = i
    · rw [if_pos hj, hj]
      exact ⟨hactive, hstarted⟩
    · rw [if_neg hj]
      exact ⟨rfl, rfl⟩
  · rw [hviewers]
    rfl

theorem Agrees.seen {s : ScreenHostSession} (h : Agrees s) (i : SlotId) (nowUs : UInt64) :
    Agrees (s.seen i nowUs) :=
  h.setSlot (i := i) rfl rfl rfl rfl rfl

theorem FromViewer.agrees {s s' : ScreenHostSession} {i : SlotId} {type : MsgType}
    {payload : Bytes} {nowUs : UInt64} {out : List ScreenHostEvent}
    (h : FromViewer s i type payload nowUs s' out) (htable : s.viewers.Consistent)
    (hactive : (s.slot i).active = true) (hagrees : Agrees s) : Agrees s' := by
  have htable' := (h.seats htable hactive).1
  cases h with
  | undisturbed _ h =>
    obtain ⟨after, hseat, hviewers⟩ := h.slot
    exact hagrees.setSlot hviewers hseat.active hseat.started h.state h.sessionId
  | started _ _ =>
    have hself : ((s.started i).slot i).active = true ∧ ((s.started i).slot i).started = true := by
      unfold ScreenHostSession.started
      rw [show ∀ t : ScreenHostSession, ({ t with state := .streaming } : ScreenHostSession).slot i =
        t.slot i from fun _ => rfl, slot_setSlot_self]
      exact ⟨hactive, rfl⟩
    constructor
    · exact ((stateOf_streaming htable').mpr (ViewerTable.anyStarted_iff.mpr ⟨i, hself⟩)).symm
    · exact hagrees.sessionId
  | denied _ _ _ => exact hagrees.setSlot rfl rfl rfl rfl rfl
  | applied _ _ _ => exact hagrees.setSlot rfl rfl rfl rfl rfl
  | released _ _ _ _ => exact hagrees.setSlot rfl rfl rfl rfl rfl

theorem Dropped.agrees {s : ScreenHostSession} {b : Option ViewerBudget} {i : SlotId}
    {c : HostCall} (h : Dropped s b i c) (htable : s.viewers.Consistent)
    (hactive : (s.slot i).active = true) (hagrees : Agrees s) : Agrees c.session := by
  refine ⟨h.state, ?_⟩
  rw [h.sessionId]
  by_cases hempty : c.session.viewers.empty = true
  · rw [if_pos hempty]
    simp [hempty]
  · rw [if_neg hempty, hagrees.sessionId]
    have hbefore := not_empty htable hactive
    simp [hempty, hbefore]

theorem WelcomedBack.agrees {s s' : ScreenHostSession} {i : SlotId} {m : Hello}
    {nowUs fromPacked : UInt64} {out : List ScreenHostEvent}
    (h : WelcomedBack s i m nowUs fromPacked s' out) (hagrees : Agrees s) : Agrees s' :=
  hagrees.congr (fun j => ⟨(h.seats j).1, (h.seats j).2.1⟩) h.count h.state h.sessionId

/-- A session is begun only where its first viewer finds a place. -/
theorem Welcomed.agrees {s : ScreenHostSession} {b : Option ViewerBudget} {m : Hello}
    {nowUs fromPacked : UInt64} {random : Option UInt32} {c : HostCall}
    (h : Welcomed s b m nowUs fromPacked random c) (htable : s.viewers.Consistent)
    (hagrees : Agrees s)
    (hroom : s.viewers.empty = true → random.getD 0 ≠ 0 → ViewerTable.takePlace b ≠ none) :
    Agrees c.session := by
  cases h with
  | noSession hempty _ =>
    exact ⟨(stateOf_idle.mpr hempty).symm, hagrees.sessionId⟩
  | busy hbegun hfull =>
    have hrunning : ¬ s.viewers.empty = true := by
      intro hempty
      rcases hfull with hall | hnone
      · exact not_empty htable (hall ⟨0, by decide⟩) hempty
      · exact hroom hempty (hbegun hempty) hnone
    have hid : s.sessionIdWith random = s.sessionId := if_neg hrunning
    refine hagrees.congr (fun _ => ⟨rfl, rfl⟩) rfl rfl hid
  | admitted h =>
    refine ⟨h.state, ?_⟩
    have hrunning : ¬ c.session.viewers.empty = true := by
      unfold ViewerTable.empty
      rw [h.count]
      simp
    have hid : c.session.sessionId ≠ 0 := by
      rw [h.sessionId]
      unfold sessionIdWith
      by_cases hempty : s.viewers.empty = true
      · rw [if_pos hempty]
        exact h.begun hempty
      · rw [if_neg hempty]
        exact fun hzero => hempty (hagrees.sessionId.mp hzero)
    simp [hrunning, hid]

theorem Drops.agrees {s : ScreenHostSession} {b : Option ViewerBudget} {c : HostCall}
    (h : Drops s b c) (htable : s.viewers.Consistent) (hagrees : Agrees s) :
    Agrees c.session := by
  induction h with
  | none => exact hagrees
  | more hdrops hactive hdropped ih =>
    exact hdropped.agrees (hdrops.follows htable).1 hactive ih

/-- A call begins a session, and finds no place for its first viewer. -/
def BeginsInVain (s : ScreenHostSession) (b : Option ViewerBudget) (call : ScreenHostCall) : Prop :=
  (∀ i, (s.slot i).active = false) ∧ ViewerTable.takePlace b = none ∧
    ∃ hello, call.helloOf = some hello ∧ hello.random.getD 0 ≠ 0

theorem Called.agrees {s : ScreenHostSession} {b : Option ViewerBudget} {call : ScreenHostCall}
    {c : HostCall} (h : Called s b call c) (htable : s.viewers.Consistent) (hagrees : Agrees s)
    (hplaces : ∀ p, b = some p → s.viewers.count ≤ p.taken ∧ p.taken ≤ kMaxViewersPerHost)
    (hroom : ¬ BeginsInVain s b call) : Agrees c.session := by
  cases h with
  | message hmsg _ h =>
    have hactive := messageOf_active hmsg
    exact h.agrees (seen_consistent htable hactive _)
      (((seen_seats s _ _).active _).trans hactive) (hagrees.seen _ _)
  | left before after _ _ h hsame _ _ =>
    have hend := h.agrees htable hagrees
    refine hend.congr ?_ ?_ hsame.state hsame.sessionId
    · intro j
      unfold slot
      rw [hsame.viewers]
      exact ⟨rfl, rfl⟩
    · rw [hsame.viewers]
  | hello _ hhello h =>
    cases h with
    | back hcleared _ _ h =>
      cases hcleared with
      | kept _ => exact h.agrees hagrees
      | dropped hactive _ _ hdropped => exact h.agrees (hdropped.agrees htable hactive hagrees)
    | new hcleared _ _ h =>
      cases hcleared with
      | kept _ =>
        refine h.agrees htable hagrees ?_
        intro hempty hrandom hnone
        exact hroom ⟨htable.empty_iff.mp hempty, hnone, _, hhello, hrandom⟩
      | dropped hactive _ _ hdropped =>
        refine h.agrees hdropped.table (hdropped.agrees htable hactive hagrees) ?_
        -- the viewer that was replaced has given its place back
        intro _ _ hnone
        rw [hdropped.budget] at hnone
        cases b with
        | none => cases hnone
        | some p =>
          obtain ⟨hle, hmax⟩ := hplaces p rfl
          have hcount := hdropped.count
          have hlt : p.taken - 1 < kMaxViewersPerHost := by omega
          have hsome : ViewerTable.takePlace (ViewerTable.givePlaces (some p) 1) =
              some (some { p with taken := p.taken - 1 + 1 }) :=
            congrArg (Option.map some) (if_pos hlt)
          rw [hsome] at hnone
          cases hnone

end ScreenHostSession

/-! ## Runs -/

/-- A session of a host, with the places that the other sessions have taken. -/
structure ViewerHost where
  session : ScreenHostSession := {}
  budget : Option ViewerBudget
  others : Nat := 0

inductive ViewerHostEvent where
  | call (call : ScreenHostCall)
  | takeElsewhere
  | giveElsewhere

namespace ViewerHost

/-- A session with a budget of its own host, or one without a budget. -/
def init (shared : Bool) : ViewerHost := { budget := if shared then some {} else none }

def takeElsewhere (w : ViewerHost) : ViewerHost :=
  match w.budget.bind ViewerBudget.tryTake with
  | none => w
  | some b => { w with budget := some b, others := w.others + 1 }

def giveElsewhere (w : ViewerHost) : ViewerHost :=
  if w.others = 0 then w
  else { w with budget := ViewerTable.givePlaces w.budget 1, others := w.others - 1 }

end ViewerHost

/-- One session as a machine, among others that share its budget. -/
def viewerHost : Machine ViewerHost ViewerHostEvent ScreenHostEvent where
  step w
    | .call call =>
        let result := w.session.call w.budget call
        ({ w with session := result.session, budget := result.budget }, result.events)
    | .takeElsewhere => (w.takeElsewhere, [])
    | .giveElsewhere => (w.giveElsewhere, [])

namespace ViewerHost

/-- The table is consistent, and the budget counts its viewers and those of the others. -/
structure Fair (w : ViewerHost) : Prop where
  table : w.session.viewers.Consistent
  places : ∀ b, w.budget = some b →
    b.taken = w.others + w.session.viewers.count ∧ b.taken ≤ kMaxViewersPerHost

theorem fair_init (shared : Bool) : Fair (init shared) := by
  refine ⟨ViewerTable.Consistent.init, ?_⟩
  intro b hb
  cases shared with
  | false => cases hb
  | true =>
    cases hb
    exact ⟨rfl, Nat.zero_le _⟩

theorem Fair.step {w : ViewerHost} (h : Fair w) (e : ViewerHostEvent) :
    Fair (viewerHost.step w e).1 := by
  cases e with
  | call call =>
    obtain ⟨htable, hfollows⟩ :=
      (ScreenHostSession.call_spec h.table w.budget call).follows h.table
    refine ⟨htable, ?_⟩
    intro b' hb'
    change (w.session.call w.budget call).budget = some b' at hb'
    cases hb : w.budget with
    | none =>
      rw [hfollows.unshared hb] at hb'
      cases hb'
    | some b =>
      obtain ⟨hsum, hmax⟩ := h.places b hb
      obtain ⟨p', hp', hplaces, hmax'⟩ := hfollows.places b hb (by omega)
      cases hp'.symm.trans hb'
      refine ⟨?_, hmax' hmax⟩
      change b'.taken = w.others + (w.session.call w.budget call).session.viewers.count
      omega
  | takeElsewhere =>
    change Fair w.takeElsewhere
    unfold takeElsewhere
    cases hb : w.budget with
    | none => exact h
    | some b =>
      obtain ⟨hsum, -⟩ := h.places b hb
      rw [Option.bind_some]
      unfold ViewerBudget.tryTake
      by_cases hlt : b.taken < kMaxViewersPerHost
      · rw [if_pos hlt]
        refine ⟨h.table, ?_⟩
        intro b' hb'
        cases hb'
        refine ⟨?_, hlt⟩
        change b.taken + 1 = w.others + 1 + w.session.viewers.count
        omega
      · rw [if_neg hlt]
        exact h
  | giveElsewhere =>
    change Fair w.giveElsewhere
    unfold giveElsewhere
    by_cases hzero : w.others = 0
    · rw [if_pos hzero]
      exact h
    · rw [if_neg hzero]
      refine ⟨h.table, ?_⟩
      intro b' hb'
      obtain ⟨b, hb, rfl⟩ := Option.map_eq_some_iff.mp hb'
      obtain ⟨hsum, hmax⟩ := h.places b hb
      constructor
      · change b.taken - 1 = w.others - 1 + w.session.viewers.count
        omega
      · exact (Nat.sub_le b.taken 1).trans hmax

theorem Fair.run {w : ViewerHost} (h : Fair w) (events : List ViewerHostEvent) :
    Fair (viewerHost.run w events).1 :=
  viewerHost.run_invariant' (fun w _ => Fair w) h (fun _ _ e hw => hw.step e) events

/-- No session is begun in vain. -/
def Begins (w : ViewerHost) : ViewerHostEvent → Prop
  | .call call => ¬ w.session.BeginsInVain w.budget call
  | _ => True

theorem agrees_init (shared : Bool) : (init shared).session.Agrees := by
  constructor
  · rfl
  · exact ⟨fun _ => rfl, fun _ => rfl⟩

theorem agrees_step {w : ViewerHost} (hfair : Fair w) (hagrees : w.session.Agrees)
    {e : ViewerHostEvent} (hbegins : Begins w e) :
    (viewerHost.step w e).1.session.Agrees := by
  cases e with
  | call call =>
    refine (ScreenHostSession.call_spec hfair.table w.budget call).agrees hfair.table hagrees ?_
      hbegins
    intro b hb
    obtain ⟨hsum, hmax⟩ := hfair.places b hb
    exact ⟨by omega, hmax⟩
  | takeElsewhere =>
    change w.takeElsewhere.session.Agrees
    unfold takeElsewhere
    split
    · exact hagrees
    · exact hagrees
  | giveElsewhere =>
    change w.giveElsewhere.session.Agrees
    unfold giveElsewhere
    split
    · exact hagrees
    · exact hagrees

/-- A session that is begun in vain keeps its id without viewers. -/
theorem not_agrees_of_vain {w : ViewerHost} (hfair : Fair w) {call : ScreenHostCall}
    (h : w.session.BeginsInVain w.budget call) :
    ¬ (viewerHost.step w (.call call)).1.session.StateAgrees := by
  obtain ⟨hnone, hplace, hello, hhello, hrandom⟩ := h
  have hspec := ScreenHostSession.call_spec hfair.table w.budget call
  have hempty := hfair.table.empty_iff.mpr hnone
  change ¬ (w.session.call w.budget call).session.StateAgrees
  generalize w.session.call w.budget call = c at hspec
  have hnobody : ∀ {i : SlotId} {p : Prop}, (w.session.slot i).active = true → p := by
    intro i p hactive
    exact absurd hempty (ScreenHostSession.not_empty hfair.table hactive)
  cases hspec with
  | message _ hother _ =>
    rw [hhello] at hother
    cases hother
  | left _ _ _ hother _ _ _ _ =>
    rw [hhello] at hother
    cases hother
  | hello _ hsame h =>
    cases hsame.symm.trans hhello
    cases h with
    | back hcleared hactive _ _ =>
      cases hcleared with
      | kept _ => exact hnobody hactive
      | dropped hbefore _ _ _ => exact hnobody hbefore
    | new hcleared _ _ h =>
      cases hcleared with
      | dropped hbefore _ _ _ => exact hnobody hbefore
      | kept _ =>
        cases h with
        | noSession _ hzero => exact absurd hzero hrandom
        | busy _ _ =>
          rintro ⟨-, hid, -⟩
          have hzero := hid.mpr hnone
          change w.session.sessionIdWith hello.random = 0 at hzero
          unfold ScreenHostSession.sessionIdWith at hzero
          rw [if_pos hempty] at hzero
          exact hrandom hzero
        | admitted h =>
          have hbudget := h.budget
          change ViewerTable.takePlace w.budget = _ at hbudget
          rw [hplace] at hbudget
          cases hbudget

/-- After every call the state agrees with the viewers, exactly when no session is begun in
vain. -/
theorem stateAgrees_iff (shared : Bool) (events : List ViewerHostEvent) :
    (∀ pre post, events = pre ++ post →
      (viewerHost.run (init shared) pre).1.session.StateAgrees) ↔
    viewerHost.Along (fun w _ e => Begins w e) (init shared) events := by
  have hfair := fun pre => (fair_init shared).run pre
  constructor
  · intro h pre e post hsplit
    cases e with
    | takeElsewhere => trivial
    | giveElsewhere => trivial
    | call call =>
      intro hvain
      have hafter := h (pre ++ [.call call]) post (by simp [hsplit])
      rw [Machine.run_concat] at hafter
      exact not_agrees_of_vain (hfair pre) hvain hafter
  · intro h pre post hsplit
    subst hsplit
    have hagrees : (viewerHost.run (init shared) pre).1.session.Agrees := by
      have hboth := viewerHost.run_invariant
        (fun w _ => Fair w ∧ w.session.Agrees) (fun w _ e => Begins w e)
        ⟨fair_init shared, agrees_init shared⟩
        (fun w _ e hbegins hw => ⟨hw.1.step e, agrees_step hw.1 hw.2 hbegins⟩) pre h.left
      exact hboth.2
    exact hagrees.stateAgrees (hfair pre).table

/-- The HELLO of a client 7 from the address 9, when all places are taken elsewhere: the session
has an id afterwards, and no viewer. -/
theorem stateAgrees_vain :
    ¬ ∀ (shared : Bool) (events pre post : List ViewerHostEvent), events = pre ++ post →
      (viewerHost.run (init shared) pre).1.session.StateAgrees := by
  intro h
  let hello : List ViewerHostEvent := [.call (.handlePacket
    [3, 1, 0, 0, 0, 0, 0, 0, 0, 0, 0, 7, 0, 0, 0, 0, 0, 0, 0, 0] 1 9 (some 5))]
  have hafter := h true (List.replicate 5 .takeElsewhere ++ hello) _ [] (List.append_nil _).symm
  have hid : (viewerHost.run (init true)
      (List.replicate 5 .takeElsewhere ++ hello)).1.session.sessionId ≠ 0 := by
    decide +kernel
  have hnone : ∀ i, ((viewerHost.run (init true)
      (List.replicate 5 .takeElsewhere ++ hello)).1.session.slot i).active = false := by
    decide +kernel
  exact hid (hafter.2.1.mpr hnone)

end ViewerHost

end Deskhub
