import Deskhub.Session.ScreenHostState

/-!
# Who is in control

Control is noted by address. A viewer that says hello from another address takes its slot
along, but not the control: from then on the address in control is nobody's, and nobody is
told when that viewer leaves. `controlSafe_iff` says that this is the only way to lose track.
-/

namespace Deskhub

namespace ScreenHostSession

/-- The viewer whose input a call passes on. -/
def appliedBy (s : ScreenHostSession) (call : ScreenHostCall) : Option SlotId :=
  match s.messageOf call with
  | none => none
  | some msg =>
      if msg.type = .inputEvent ∧ s.state = .streaming ∧
          s.viewers.higherPriorityIsDriving msg.slot msg.nowUs = false then some msg.slot
      else none

/-- The viewer that says in a call that it has lost the focus. -/
def givenUpBy (s : ScreenHostSession) (call : ScreenHostCall) : Option SlotId :=
  match s.messageOf call with
  | none => none
  | some msg =>
      if msg.type = .setFocus ∧ s.state = .streaming ∧ parseSetFocus msg.payload = some false then
        some msg.slot
      else none

/-- The viewer whose input was passed on last and that has not given up control, by its place
in the order of joining. -/
def driverAfter (s : ScreenHostSession) (driver : Option Nat) (call : ScreenHostCall) :
    Option Nat :=
  match s.appliedBy call, s.givenUpBy call with
  | some i, _ => some (s.slot i).joinOrder
  | none, some i => if driver = some (s.slot i).joinOrder then none else driver
  | none, none => driver

/-- A viewer is there. -/
def Present (s : ScreenHostSession) (joinOrder : Nat) : Prop :=
  ∃ i, (s.slot i).active = true ∧ (s.slot i).joinOrder = joinOrder

/-- Control is with nobody, or with a viewer that is there. -/
def ControlHeld (s : ScreenHostSession) : Prop :=
  s.controllingAddr = 0 ∨ ∃ i, (s.slot i).active = true ∧ (s.slot i).addrPacked = s.controllingAddr

/-- When the driver is gone, the host has been told. -/
def Told (s s' : ScreenHostSession) (driver : Option Nat) (out : List ScreenHostEvent) : Prop :=
  ∀ u, driver = some u → s.Present u → s'.Present u ∨ ∃ a, ScreenHostEvent.controllerChange a ∈ out

/-- A HELLO that moves the viewer in control to another address. -/
def MovesController (s : ScreenHostSession) (call : ScreenHostCall) : Prop :=
  ∃ hello, call.helloOf = some hello ∧ ∃ i, (s.slot i).active = true ∧
    (s.slot i).clientId = hello.m.clientId ∧ (s.slot i).addrPacked = s.controllingAddr ∧
    (s.slot i).addrPacked ≠ hello.fromPacked

/-- The driver, if it is there, is in control. -/
structure InControl (s : ScreenHostSession) (driver : Option Nat) : Prop where
  held : ControlHeld s
  drives : ∀ u i, driver = some u → (s.slot i).active = true → (s.slot i).joinOrder = u →
    s.controllingAddr = (s.slot i).addrPacked
  known : ∀ u, driver = some u → u < s.viewers.nextJoinOrder

/-! ## Messages -/

theorem higherPriority_seen (s : ScreenHostSession) (i j : SlotId) (nowUs nowUs' : UInt64) :
    (s.seen i nowUs).viewers.higherPriorityIsDriving j nowUs' =
      s.viewers.higherPriorityIsDriving j nowUs' := by
  have hslot : ∀ k, ((s.seen i nowUs).viewers.slots k).joinOrder = (s.viewers.slots k).joinOrder ∧
      isDriving ((s.seen i nowUs).viewers.slots k) nowUs' =
        isDriving (s.viewers.slots k) nowUs' := by
    intro k
    have hk := slot_seen s i k nowUs
    unfold slot at hk
    rw [hk]
    by_cases hki : k = i
    · rw [if_pos hki, hki]
      exact ⟨rfl, rfl⟩
    · rw [if_neg hki]
      exact ⟨rfl, rfl⟩
  unfold ViewerTable.higherPriorityIsDriving
  refine congrArg _ (funext fun k => ?_)
  rw [(hslot k).1, (hslot k).2, (hslot j).1]

theorem appliedBy_of_message {s : ScreenHostSession} {call : ScreenHostCall} {msg : ViewerMessage}
    (hmsg : s.messageOf call = some msg) :
    s.appliedBy call =
      if msg.type = .inputEvent ∧ s.state = .streaming ∧
          s.viewers.higherPriorityIsDriving msg.slot msg.nowUs = false then some msg.slot
      else none := by
  unfold appliedBy
  rw [hmsg]

theorem givenUpBy_of_message {s : ScreenHostSession} {call : ScreenHostCall} {msg : ViewerMessage}
    (hmsg : s.messageOf call = some msg) :
    s.givenUpBy call =
      if msg.type = .setFocus ∧ s.state = .streaming ∧ parseSetFocus msg.payload = some false then
        some msg.slot
      else none := by
  unfold givenUpBy
  rw [hmsg]

/-- A call that is no input and no loss of focus leaves the driver. -/
theorem driverAfter_eq {s : ScreenHostSession} {driver : Option Nat} {call : ScreenHostCall}
    (happlied : s.appliedBy call = none) (hgiven : s.givenUpBy call = none) :
    s.driverAfter driver call = driver := by
  unfold driverAfter
  rw [happlied, hgiven]

theorem driverAfter_bye {s : ScreenHostSession} {driver : Option Nat} {call : ScreenHostCall}
    (hmsg : ∀ msg, s.messageOf call = some msg → msg.type = .bye) :
    s.driverAfter driver call = driver := by
  refine driverAfter_eq ?_ ?_
  · cases h : s.messageOf call with
    | none =>
      unfold appliedBy
      rw [h]
    | some msg =>
      rw [appliedBy_of_message h, if_neg]
      rw [hmsg msg h]
      exact fun hboth => nomatch hboth.1
  · cases h : s.messageOf call with
    | none =>
      unfold givenUpBy
      rw [h]
    | some msg =>
      rw [givenUpBy_of_message h, if_neg]
      rw [hmsg msg h]
      exact fun hboth => nomatch hboth.1

/-- Whatever a call says, a driver it leaves unnamed is the driver from before. -/
theorem driverAfter_cases {s : ScreenHostSession} {driver : Option Nat} {call : ScreenHostCall}
    (happlied : s.appliedBy call = none) {u : Nat} (h : s.driverAfter driver call = some u) :
    driver = some u ∧ ∀ i, s.givenUpBy call = some i → (s.slot i).joinOrder ≠ u := by
  unfold driverAfter at h
  rw [happlied] at h
  cases hgiven : s.givenUpBy call with
  | none =>
    rw [hgiven] at h
    exact ⟨h, nofun⟩
  | some i =>
    rw [hgiven] at h
    dsimp only at h
    by_cases hmine : driver = some (s.slot i).joinOrder
    · rw [if_pos hmine] at h
      cases h
    · rw [if_neg hmine] at h
      refine ⟨h, ?_⟩
      intro j hj heq
      cases hj
      rw [h, heq] at hmine
      exact hmine rfl

theorem SameSeats.present {s s' : ScreenHostSession} (h : SameSeats s s') {u : Nat}
    (hpresent : s.Present u) : s'.Present u := by
  obtain ⟨i, hactive, horder⟩ := hpresent
  exact ⟨i, (h.active i).trans hactive, (h.joinOrder i).trans horder⟩

/-- The same viewers, the same control, and no other driver. -/
theorem InControl.of_seats {s s' : ScreenHostSession} {driver driver' : Option Nat}
    (h : InControl s driver) (hseats : SameSeats s s')
    (hcontrol : s'.controllingAddr = s.controllingAddr)
    (hdriver : ∀ u, driver' = some u → driver = some u) : InControl s' driver' := by
  refine ⟨?_, ?_, ?_⟩
  · unfold ControlHeld
    rw [hcontrol]
    refine h.held.imp id ?_
    rintro ⟨i, hactive, haddr⟩
    exact ⟨i, (hseats.active i).trans hactive, (hseats.addrPacked i).trans haddr⟩
  · intro u i hu hactive horder
    rw [hcontrol, hseats.addrPacked i]
    exact h.drives u i (hdriver u hu) ((hseats.active i).symm.trans hactive)
      ((hseats.joinOrder i).symm.trans horder)
  · intro u hu
    rw [hseats.nextJoinOrder]
    exact h.known u (hdriver u hu)

/-- A message of a viewer keeps the driver in control. -/
theorem FromViewer.inControl {s s' : ScreenHostSession} {call : ScreenHostCall}
    {msg : ViewerMessage} {driver : Option Nat} {out : List ScreenHostEvent}
    (htable : s.viewers.Consistent) (hmsg : s.messageOf call = some msg)
    (h : FromViewer (s.seen msg.slot msg.nowUs) msg.slot msg.type msg.payload msg.nowUs s' out)
    (hdriver : InControl s driver) : InControl s' (s.driverAfter driver call) := by
  have hactive := messageOf_active hmsg
  have hseen := seen_seats s msg.slot msg.nowUs
  have hseats := hseen.trans (h.seats (seen_consistent htable hactive _)
    ((hseen.active _).trans hactive)).2
  have happlied := appliedBy_of_message hmsg
  have hgiven := givenUpBy_of_message hmsg
  -- what does not apply input keeps the driver, or unnames it
  have hsame : s.appliedBy call = none → s'.controllingAddr = s.controllingAddr →
      InControl s' (s.driverAfter driver call) := by
    intro hnone hcontrol
    exact hdriver.of_seats hseats hcontrol fun u hu => (driverAfter_cases hnone hu).1
  generalize hs : s.seen msg.slot msg.nowUs = t at h hseen
  have hcontrolSeen : t.controllingAddr = s.controllingAddr := by rw [← hs]; rfl
  have hstateSeen : t.state = s.state := by rw [← hs]; rfl
  cases h with
  | undisturbed hinput h =>
    refine hsame ?_ (h.control.trans hcontrolSeen)
    rw [happlied, if_neg]
    rintro ⟨htype, hstreaming, -⟩
    exact hinput htype (hstateSeen.trans hstreaming)
  | started htype _ =>
    refine hsame ?_ hcontrolSeen
    rw [happlied, if_neg]
    rw [htype]
    exact fun hboth => nomatch hboth.1
  | denied _ _ hdriven =>
    refine hsame ?_ hcontrolSeen
    rw [happlied, if_neg]
    rintro ⟨-, -, hfree⟩
    rw [← hs, higherPriority_seen, hfree] at hdriven
    cases hdriven
  | applied htype hstreaming hdriven =>
    rw [← hs, higherPriority_seen] at hdriven
    have hnow : s.driverAfter driver call = some (s.slot msg.slot).joinOrder := by
      unfold driverAfter
      rw [happlied, if_pos ⟨htype, hstateSeen.symm.trans hstreaming, hdriven⟩]
    have haddr : (t.slot msg.slot).addrPacked = (s.slot msg.slot).addrPacked :=
      hseen.addrPacked msg.slot
    rw [hnow]
    refine ⟨.inr ⟨msg.slot, (hseats.active _).trans hactive, ?_⟩, ?_, ?_⟩
    · exact (hseats.addrPacked _).trans haddr.symm
    · intro u i hu hi horder
      cases hu
      have hi' : (s.slot i).active = true := (hseats.active i).symm.trans hi
      have heq := htable.order_inj i msg.slot hi' hactive ((hseats.joinOrder i).symm.trans horder)
      rw [heq, hseats.addrPacked]
      exact haddr
    · intro u hu
      cases hu
      rw [hseats.nextJoinOrder]
      exact htable.order_lt _ hactive
  | released htype hstreaming hfocus hmine =>
    have hnone : s.appliedBy call = none := by
      rw [happlied, if_neg]
      rw [htype]
      exact fun hboth => nomatch hboth.1
    rw [if_pos ⟨htype, hstateSeen.symm.trans hstreaming, hfocus⟩] at hgiven
    refine ⟨.inl rfl, ?_, ?_⟩
    · -- a driver that is left is another viewer, and then it was in control
      intro u i hu hi horder
      obtain ⟨hbefore, hother⟩ := driverAfter_cases hnone hu
      have hi' : (s.slot i).active = true := (hseats.active i).symm.trans hi
      have horder' := (hseats.joinOrder i).symm.trans horder
      have hcontrol := hdriver.drives u i hbefore hi' horder'
      rcases hmine with hzero | haddr
      · rw [hcontrolSeen, hcontrol] at hzero
        exact absurd hzero (htable.addr_ne_zero i hi')
      · rw [hcontrolSeen, hcontrol, hseen.addrPacked] at haddr
        have heq := htable.addr_inj i msg.slot hi' hactive haddr
        rw [heq] at horder'
        exact absurd horder' (hother _ hgiven)
    · intro u hu
      rw [hseats.nextJoinOrder]
      exact hdriver.known u (driverAfter_cases hnone hu).1

/-! ## Viewers that leave and come -/

/-- The driver that is dropped was in control, so the host is told. -/
theorem Dropped.inControl {s : ScreenHostSession} {b : Option ViewerBudget} {i : SlotId}
    {c : HostCall} {driver : Option Nat} (h : Dropped s b i c) (htable : s.viewers.Consistent)
    (hactive : (s.slot i).active = true) (hdriver : InControl s driver) :
    InControl c.session driver ∧ Told s c.session driver c.events := by
  have hcontrol := h.control
  refine ⟨⟨?_, ?_, ?_⟩, ?_⟩
  · by_cases hgone : c.session.viewers.empty = true ∨ s.controllingAddr = (s.slot i).addrPacked
    · rw [if_pos hgone] at hcontrol
      exact .inl hcontrol
    · rw [if_neg hgone] at hcontrol
      rcases hdriver.held with hzero | ⟨k, hk, haddr⟩
      · exact .inl (hcontrol.trans hzero)
      · have hki : k ≠ i := by
          rintro rfl
          exact hgone (.inr haddr.symm)
        have hslot := h.kept k hki hk
        rw [← hslot] at hk haddr
        exact .inr ⟨k, hk, haddr.trans hcontrol.symm⟩
  · intro u k hu hk horder
    obtain ⟨hki, hbefore⟩ := h.left k hk
    rw [h.kept k hki hbefore] at horder ⊢
    have hmine := hdriver.drives u k hu hbefore horder
    have hstays : ¬ (c.session.viewers.empty = true ∨
        s.controllingAddr = (s.slot i).addrPacked) := by
      rintro (hempty | haddr)
      · exact not_empty h.table hk hempty
      · exact hki (htable.addr_inj k i hbefore hactive (hmine.symm.trans haddr))
    rw [hcontrol, if_neg hstays, hmine]
  · intro u hu
    rw [h.nextJoinOrder]
    exact hdriver.known u hu
  · rintro u hu ⟨k, hk, horder⟩
    by_cases hki : k = i
    · subst hki
      right
      have hmine := hdriver.drives u k hu hk horder
      rw [if_pos (Or.inr hmine)] at hcontrol
      have hchanged : ¬ c.session.controllingAddr = s.controllingAddr := by
        rw [hcontrol, hmine]
        exact fun hzero => htable.addr_ne_zero k hk hzero.symm
      refine ⟨0, ?_⟩
      rw [h.events, if_neg hchanged]
      simp
    · left
      refine ⟨k, ?_, ?_⟩
      · rw [h.kept k hki hk]
        exact hk
      · rw [h.kept k hki hk]
        exact horder

theorem Told.of_present {s s' : ScreenHostSession} (driver : Option Nat)
    (out : List ScreenHostEvent) (h : ∀ u, s.Present u → s'.Present u) : Told s s' driver out :=
  fun u _ hu => .inl (h u hu)

theorem Told.trans {s s' s'' : ScreenHostSession} {driver : Option Nat}
    {out out' : List ScreenHostEvent} (h : Told s s' driver out) (h' : Told s' s'' driver out') :
    Told s s'' driver (out ++ out') := by
  intro u hu hpresent
  rcases h u hu hpresent with hstill | ⟨a, ha⟩
  · rcases h' u hu hstill with hstill' | ⟨a, ha⟩
    · exact .inl hstill'
    · exact .inr ⟨a, List.mem_append_right out ha⟩
  · exact .inr ⟨a, List.mem_append_left out' ha⟩

theorem Drops.inControl {s : ScreenHostSession} {b : Option ViewerBudget} {c : HostCall}
    {driver : Option Nat} (h : Drops s b c) (htable : s.viewers.Consistent)
    (hdriver : InControl s driver) :
    InControl c.session driver ∧ Told s c.session driver c.events := by
  induction h with
  | none => exact ⟨hdriver, .of_present driver _ fun _ hu => hu⟩
  | more hdrops hactive hdropped ih =>
    obtain ⟨hbefore, htold⟩ := ih
    obtain ⟨hafter, htold'⟩ := hdropped.inControl (hdrops.follows htable).1 hactive hbefore
    exact ⟨hafter, htold.trans htold'⟩

/-- A viewer that says hello again, and is not in control or stays where it is. -/
theorem WelcomedBack.inControl {s s' : ScreenHostSession} {i : SlotId} {m : Hello}
    {nowUs fromPacked : UInt64} {out : List ScreenHostEvent} {driver : Option Nat}
    (h : WelcomedBack s i m nowUs fromPacked s' out)
    (hstays : (s.slot i).active = true → (s.slot i).addrPacked = s.controllingAddr →
      (s.slot i).addrPacked = fromPacked)
    (hdriver : InControl s driver) :
    InControl s' driver ∧ Told s s' driver out := by
  have hseats := h.seats
  -- the address in control is where it was
  have haddr : ∀ k, (s.slot k).active = true → (s.slot k).addrPacked = s.controllingAddr →
      (s'.slot k).addrPacked = s'.controllingAddr := by
    intro k hk hmine
    have hslot := h.slot_eq k
    rw [h.control, hslot]
    by_cases hki : k = i
    · subst hki
      rw [if_pos rfl, ← hmine]
      exact (hstays hk hmine).symm
    · rw [if_neg hki]
      exact hmine
  refine ⟨⟨?_, ?_, ?_⟩, .of_present driver _ ?_⟩
  · rcases hdriver.held with hzero | ⟨k, hk, hmine⟩
    · exact .inl (h.control.trans hzero)
    · exact .inr ⟨k, (hseats k).1.trans hk, haddr k hk hmine⟩
  · intro u k hu hk horder
    have hk' : (s.slot k).active = true := (hseats k).1.symm.trans hk
    have horder' : (s.slot k).joinOrder = u := (hseats k).2.2.2.1.symm.trans horder
    exact (haddr k hk' (hdriver.drives u k hu hk' horder').symm).symm
  · intro u hu
    rw [h.nextJoinOrder]
    exact hdriver.known u hu
  · rintro u ⟨k, hk, horder⟩
    exact ⟨k, (hseats k).1.trans hk, (hseats k).2.2.2.1.trans horder⟩

theorem Admitted.inControl {s : ScreenHostSession} {b : Option ViewerBudget} {m : Hello}
    {nowUs fromPacked : UInt64} {random : Option UInt32} {i : SlotId} {c : HostCall}
    {driver : Option Nat} (h : Admitted s b m nowUs fromPacked random i c)
    (hdriver : InControl s driver) :
    InControl c.session driver ∧ Told s c.session driver c.events := by
  have hother : ∀ k, k ≠ i → c.session.slot k = s.slot k := by
    intro k hki
    rw [h.slot_eq, if_neg hki]
  have hnew : c.session.slot i = newViewer m nowUs fromPacked s.viewers.nextJoinOrder := by
    rw [h.slot_eq, if_pos rfl]
  have hkept : ∀ k, (s.slot k).active = true → c.session.slot k = s.slot k := by
    intro k hk
    refine hother k ?_
    rintro rfl
    rw [h.free] at hk
    cases hk
  refine ⟨⟨?_, ?_, ?_⟩, .of_present driver _ ?_⟩
  · rcases hdriver.held with hzero | ⟨k, hk, hmine⟩
    · exact .inl (h.control.trans hzero)
    · refine .inr ⟨k, ?_, ?_⟩
      · rw [hkept k hk]
        exact hk
      · rw [hkept k hk, h.control]
        exact hmine
  · intro u k hu hk horder
    by_cases hki : k = i
    · -- the new viewer comes after every driver
      rw [hki, hnew] at horder
      have hlt := hdriver.known u hu
      rw [← horder] at hlt
      exact absurd hlt (Nat.lt_irrefl _)
    · rw [hother k hki] at hk horder ⊢
      rw [h.control]
      exact hdriver.drives u k hu hk horder
  · intro u hu
    rw [h.nextJoinOrder]
    exact Nat.lt_succ_of_lt (hdriver.known u hu)
  · rintro u ⟨k, hk, horder⟩
    refine ⟨k, ?_, ?_⟩
    · rw [hkept k hk]
      exact hk
    · rw [hkept k hk]
      exact horder

theorem Welcomed.inControl {s : ScreenHostSession} {b : Option ViewerBudget} {m : Hello}
    {nowUs fromPacked : UInt64} {random : Option UInt32} {c : HostCall} {driver : Option Nat}
    (h : Welcomed s b m nowUs fromPacked random c) (hdriver : InControl s driver) :
    InControl c.session driver ∧ Told s c.session driver c.events := by
  cases h with
  | noSession _ _ =>
    exact ⟨⟨hdriver.held, hdriver.drives, hdriver.known⟩, .of_present driver _ fun _ hu => hu⟩
  | busy _ _ =>
    exact ⟨⟨hdriver.held, hdriver.drives, hdriver.known⟩, .of_present driver _ fun _ hu => hu⟩
  | admitted h => exact h.inControl hdriver

theorem Cleared.inControl {s : ScreenHostSession} {b : Option ViewerBudget} {m : Hello}
    {fromPacked : UInt64} {c : HostCall} {driver : Option Nat}
    (h : Cleared s b m fromPacked c) (htable : s.viewers.Consistent)
    (hdriver : InControl s driver) :
    InControl c.session driver ∧ Told s c.session driver c.events := by
  cases h with
  | kept _ => exact ⟨hdriver, .of_present driver _ fun _ hu => hu⟩
  | dropped hactive _ _ hdropped => exact hdropped.inControl htable hactive hdriver

/-- Who is left in the slots of a session after the address of a HELLO was freed, and whether
it is in control, is as before. -/
theorem Cleared.controller {s : ScreenHostSession} {b : Option ViewerBudget} {m : Hello}
    {fromPacked : UInt64} {c : HostCall} (h : Cleared s b m fromPacked c)
    (hconsistent : c.session.viewers.Consistent) {i : SlotId}
    (hactive : (c.session.slot i).active = true)
    (hcontrol : (c.session.slot i).addrPacked = c.session.controllingAddr) :
    s.slot i = c.session.slot i ∧ c.session.controllingAddr = s.controllingAddr := by
  cases h with
  | kept _ => exact ⟨rfl, rfl⟩
  | dropped hj haddr hclient h =>
    obtain ⟨hij, hbefore⟩ := h.left i hactive
    refine ⟨(h.kept i hij hbefore).symm, ?_⟩
    have hdropped := h.control
    split at hdropped
    · rw [hdropped] at hcontrol
      exact absurd hcontrol (hconsistent.addr_ne_zero i hactive)
    · exact hdropped

theorem Called.inControl {s : ScreenHostSession} {b : Option ViewerBudget} {call : ScreenHostCall}
    {c : HostCall} {driver : Option Nat} (h : Called s b call c) (htable : s.viewers.Consistent)
    (hdriver : InControl s driver) (hstays : ¬ MovesController s call) :
    InControl c.session (s.driverAfter driver call) ∧ Told s c.session driver c.events := by
  cases h with
  | message hmsg _ h =>
    refine ⟨h.inControl htable hmsg hdriver, .of_present driver _ fun u hu => ?_⟩
    have hactive := messageOf_active hmsg
    have hseats := (seen_seats s _ _).trans (h.seats (seen_consistent htable hactive _)
      (((seen_seats s _ _).active _).trans hactive)).2
    exact hseats.present hu
  | left before after hmsg _ h hsame hbefore hafter =>
    rw [driverAfter_bye hmsg]
    obtain ⟨hend, htold⟩ := h.inControl htable hdriver
    have hseats := SameSeats.of_viewers hsame.viewers
    refine ⟨hend.of_seats hseats hsame.control fun _ hu => hu, ?_⟩
    intro u hu hpresent
    rcases htold u hu hpresent with hstill | ⟨a, ha⟩
    · exact .inl (hseats.present hstill)
    · exact .inr ⟨a, List.mem_append_left after (List.mem_append_right before ha)⟩
  | hello hmsg hhello h =>
    have hsame : s.driverAfter driver call = driver := by
      refine driverAfter_bye ?_
      intro msg hsome
      rw [hmsg] at hsome
      cases hsome
    rw [hsame]
    cases h with
    | back hcleared hactive hclient h =>
      obtain ⟨hfreed, htold⟩ := hcleared.inControl htable hdriver
      have hconsistent := (hcleared.follows htable).1
      obtain ⟨hend, htold'⟩ := h.inControl (fun _ hcontrol => by
        by_contra hmoves
        obtain ⟨hslot, hsame⟩ := hcleared.controller hconsistent hactive hcontrol
        rw [← hslot] at hactive hclient hcontrol hmoves
        exact hstays ⟨_, hhello, _, hactive, hclient, hcontrol.trans hsame, hmoves⟩) hfreed
      exact ⟨hend, htold.trans htold'⟩
    | new hcleared _ _ h =>
      obtain ⟨hfreed, htold⟩ := hcleared.inControl htable hdriver
      obtain ⟨hend, htold'⟩ := h.inControl hfreed
      exact ⟨hend, htold.trans htold'⟩

/-- Where a HELLO moves the viewer in control, the address in control is nobody's. -/
theorem Called.not_held {s : ScreenHostSession} {b : Option ViewerBudget} {call : ScreenHostCall}
    {c : HostCall} (h : Called s b call c) (htable : s.viewers.Consistent)
    (hmoves : MovesController s call) : ¬ ControlHeld c.session := by
  obtain ⟨hello, hhello, i, hactive, hclient, hcontrol, haddr⟩ := hmoves
  have hother : ∀ {p : Prop}, call.helloOf = none → p := by
    intro p hnone
    rw [hhello] at hnone
    cases hnone
  cases h with
  | message _ hnone _ => exact hother hnone
  | left _ _ _ hnone _ _ _ _ => exact hother hnone
  | hello _ hsame h =>
    cases hsame.symm.trans hhello
    -- the viewer is still there and in control after its new address was freed
    have hfreed : ∀ {c : HostCall}, Cleared s b hello.m hello.fromPacked c →
        c.session.slot i = s.slot i ∧ c.session.controllingAddr = s.controllingAddr := by
      intro c hcleared
      cases hcleared with
      | kept _ => exact ⟨rfl, rfl⟩
      | dropped hj hjaddr hjclient h =>
        rename_i j
        have hij : i ≠ j := by
          rintro rfl
          exact hjclient hclient
        have hslot := h.kept i hij hactive
        refine ⟨hslot, ?_⟩
        rw [h.control, if_neg]
        rintro (hempty | hsame)
        · rw [← hslot] at hactive
          exact not_empty h.table hactive hempty
        · exact haddr (hcontrol.trans (hsame.trans hjaddr))
    cases h with
    | back hcleared hback hbackClient h =>
      rename_i c₀ k s' out
      obtain ⟨hslot, hsameControl⟩ := hfreed hcleared
      have hconsistent := (hcleared.follows htable).1
      have hthere : (c₀.session.slot i).active = true := by
        rw [hslot]
        exact hactive
      have hki : k = i := by
        refine hconsistent.client_inj k i hback hthere ?_
        rw [show (c₀.session.viewers.slots i) = s.slot i from hslot]
        exact hbackClient.trans hclient.symm
      subst hki
      rintro (hzero | ⟨j, hj, hjaddr⟩)
      · rw [h.control, hsameControl, ← hcontrol] at hzero
        exact htable.addr_ne_zero k hactive hzero
      · rw [h.control, hsameControl, ← hcontrol] at hjaddr
        rw [h.slot_eq j] at hj hjaddr
        by_cases hjk : j = k
        · rw [if_pos hjk] at hjaddr
          exact haddr hjaddr.symm
        · rw [if_neg hjk] at hj hjaddr
          rw [← hslot] at hjaddr
          exact hjk (hconsistent.addr_inj j k hj hthere hjaddr)
    | new hcleared _ hstranger _ =>
      obtain ⟨hslot, -⟩ := hfreed hcleared
      rw [← hslot] at hactive hclient
      exact absurd hclient (hstranger i hactive)

end ScreenHostSession

/-! ## Runs -/

/-- A session, and who is its driver. -/
structure WatchedHost where
  host : ViewerHost
  driver : Option Nat := none

namespace WatchedHost

def init (shared : Bool) : WatchedHost := { host := .init shared }

def driverAfter (w : WatchedHost) : ViewerHostEvent → Option Nat
  | .call call => w.host.session.driverAfter w.driver call
  | _ => w.driver

/-- No viewer in control moves. -/
def Stays (w : WatchedHost) : ViewerHostEvent → Prop
  | .call call => ¬ w.host.session.MovesController call
  | _ => True

end WatchedHost

def watchedHost : Machine WatchedHost ViewerHostEvent ScreenHostEvent where
  step w e :=
    ({ host := (viewerHost.step w.host e).1, driver := w.driverAfter e },
      (viewerHost.step w.host e).2)

namespace WatchedHost

theorem fair_run (shared : Bool) (events : List ViewerHostEvent) :
    (watchedHost.run (init shared) events).1.host.Fair :=
  watchedHost.run_invariant' (fun w _ => w.host.Fair) (ViewerHost.fair_init shared)
    (fun _ _ e hw => hw.step e) events

theorem inControl_init (shared : Bool) : (init shared).host.session.InControl none :=
  ⟨.inl rfl, nofun, nofun⟩

theorem session_takeElsewhere (w : ViewerHost) : w.takeElsewhere.session = w.session := by
  unfold ViewerHost.takeElsewhere
  split
  · rfl
  · rfl

theorem session_giveElsewhere (w : ViewerHost) : w.giveElsewhere.session = w.session := by
  unfold ViewerHost.giveElsewhere
  split
  · rfl
  · rfl

theorem inControl_step {w : WatchedHost} (hfair : w.host.Fair)
    (hdriver : w.host.session.InControl w.driver) {e : ViewerHostEvent} (hstays : w.Stays e) :
    (watchedHost.step w e).1.host.session.InControl (watchedHost.step w e).1.driver ∧
      w.host.session.Told (watchedHost.step w e).1.host.session w.driver
        (watchedHost.step w e).2 := by
  cases e with
  | call call =>
    exact (ScreenHostSession.call_spec hfair.table w.host.budget call).inControl hfair.table
      hdriver hstays
  | takeElsewhere =>
    change w.host.takeElsewhere.session.InControl w.driver ∧
      w.host.session.Told w.host.takeElsewhere.session w.driver []
    rw [session_takeElsewhere]
    exact ⟨hdriver, .of_present _ _ fun _ hu => hu⟩
  | giveElsewhere =>
    change w.host.giveElsewhere.session.InControl w.driver ∧
      w.host.session.Told w.host.giveElsewhere.session w.driver []
    rw [session_giveElsewhere]
    exact ⟨hdriver, .of_present _ _ fun _ hu => hu⟩

theorem inControl_run (shared : Bool) (events : List ViewerHostEvent)
    (hstays : watchedHost.Along (fun w _ e => w.Stays e) (init shared) events) :
    (watchedHost.run (init shared) events).1.host.session.InControl
      (watchedHost.run (init shared) events).1.driver := by
  have hboth := watchedHost.run_invariant
    (fun w _ => w.host.Fair ∧ w.host.session.InControl w.driver) (fun w _ e => w.Stays e)
    ⟨ViewerHost.fair_init shared, inControl_init shared⟩
    (fun w _ e hs hw => ⟨hw.1.step e, (inControl_step hw.1 hw.2 hs).1⟩) events hstays
  exact hboth.2

/-- After every call control is with nobody or with a viewer that is there, and the host is told
when the driver leaves. -/
def ControlSafe (w : WatchedHost) (events : List ViewerHostEvent) : Prop :=
  (∀ pre post, events = pre ++ post →
    (watchedHost.run w pre).1.host.session.ControlHeld) ∧
  ∀ pre e post, events = pre ++ e :: post →
    let before := (watchedHost.run w pre).1
    let after := watchedHost.step before e
    before.host.session.Told after.1.host.session before.driver after.2

/-- Control never stays with someone who left, exactly when no HELLO moves the viewer in
control. -/
theorem controlSafe_iff (shared : Bool) (events : List ViewerHostEvent) :
    ControlSafe (init shared) events ↔
      watchedHost.Along (fun w _ e => w.Stays e) (init shared) events := by
  have hfair := fair_run shared
  constructor
  · rintro ⟨hheld, -⟩ pre e post hsplit
    cases e with
    | takeElsewhere => trivial
    | giveElsewhere => trivial
    | call call =>
      intro hmoves
      have hafter := hheld (pre ++ [.call call]) post (by simp [hsplit])
      rw [Machine.run_concat] at hafter
      exact (ScreenHostSession.call_spec (hfair pre).table _ call).not_held (hfair pre).table
        hmoves hafter
  · intro hstays
    constructor
    · intro pre post hsplit
      subst hsplit
      exact (inControl_run shared pre hstays.left).held
    · intro pre e post hsplit
      have hprefix : watchedHost.Along (fun w _ e => w.Stays e) (init shared) pre := by
        rw [hsplit] at hstays
        exact hstays.left
      exact (inControl_step (hfair pre) (inControl_run shared pre hprefix)
        (hstays pre e post hsplit)).2

/-- Client 7 presses a key from the address 9, says hello from the address 10 and leaves; client
8 is there as well. The host is not told, and the address 9 stays in control. -/
theorem controlSafe_moved :
    ¬ ∀ (shared : Bool) (events : List ViewerHostEvent), ControlSafe (init shared) events := by
  intro h
  let packet (bytes : Bytes) (nowUs fromPacked : UInt64) : ViewerHostEvent :=
    .call (.handlePacket bytes nowUs fromPacked (some 5))
  let hello (client : UInt8) : Bytes :=
    [3, 1, 0, 0, 0, 0, 0, 0, 0, 0, 0, client, 0, 0, 0, 0, 0, 0, 0, 0]
  let key : Bytes := [3, 32, 0, 2, 0, 0, 0, 5, 0, 0, 0, 1, 1] ++
    [1, 0, 0, 0, 0, 0, 0, 0, 0, 0, 0, 0, 30, 0, 0, 0, 0, 1, 0]
  let pre := [packet (hello 7) 1 9, packet (hello 8) 2 11, packet [3, 3, 0, 0, 0, 0, 0, 5] 3 9,
    packet key 4 9, packet (hello 7) 5 10]
  let bye := packet [3, 4, 0, 0, 0, 0, 0, 5] 6 10
  have htold := (h false (pre ++ [bye])).2 pre bye [] rfl 1
    (by decide +kernel) ⟨⟨0, by decide⟩, by decide +kernel⟩
  rcases htold with ⟨i, hgone⟩ | ⟨a, ha⟩
  · have hnone : ∀ i, ¬ (((watchedHost.step (watchedHost.run (init false) pre).1 bye).1.host.session.slot
        i).active = true ∧ ((watchedHost.step (watchedHost.run (init false) pre).1
          bye).1.host.session.slot i).joinOrder = 1) := by
      decide +kernel
    exact hnone i hgone
  · have hquiet : (watchedHost.step (watchedHost.run (init false) pre).1 bye).2 =
        [.viewerLeave 10 1] := by
      decide +kernel
    rw [hquiet] at ha
    cases List.mem_singleton.mp ha

end WatchedHost

end Deskhub
