import Deskhub.Session.ScreenHostSession
import Deskhub.Session.ViewerTable

/-!
# What a call does to a screen session

One lemma for each handler of `ScreenHostSession`: which slot it writes, what becomes of the
state, the session id and the control, and which callbacks it makes.
-/

namespace Deskhub

namespace ScreenHostEvent

/-- No input, no change of control, nobody who comes or goes. -/
def quiet : ScreenHostEvent → Bool
  | .input _ | .controllerChange _ | .viewerJoin .. | .viewerLeave .. => false
  | _ => true

theorem quiet_toList {α : Type} {f : α → ScreenHostEvent} (hf : ∀ a, (f a).quiet = true)
    (o : Option α) : ∀ e ∈ (o.map f).toList, e.quiet = true := by
  intro e he
  obtain ⟨a, -, rfl⟩ := Option.map_eq_some_iff.mp (Option.mem_toList.mp he)
  exact hf a

theorem quiet_singleton {e : ScreenHostEvent} (h : e.quiet = true) : ∀ e' ∈ [e], e'.quiet = true := by
  intro e' he
  rw [List.mem_singleton.mp he]
  exact h

end ScreenHostEvent

namespace ScreenHostSession

/-- The viewer of a slot after a call that does not concern its seat. -/
structure SameSeat (before after : ViewerSlot) : Prop where
  active : after.active = before.active
  started : after.started = before.started
  wantsAudio : after.wantsAudio = before.wantsAudio
  clientId : after.clientId = before.clientId
  addrPacked : after.addrPacked = before.addrPacked
  joinOrder : after.joinOrder = before.joinOrder
  lastInputUs : after.lastInputUs = before.lastInputUs
  name : after.name = before.name
  input : after.input = before.input

theorem SameSeat.refl (slot : ViewerSlot) : SameSeat slot slot :=
  ⟨rfl, rfl, rfl, rfl, rfl, rfl, rfl, rfl, rfl⟩

/-- A handler that leaves the seats, the state and the control alone. -/
structure Undisturbed (s s' : ScreenHostSession) (i : SlotId) (out : List ScreenHostEvent) : Prop where
  slot : ∃ after, SameSeat (s.slot i) after ∧ s'.viewers = s.viewers.setSlot i after
  state : s'.state = s.state
  sessionId : s'.sessionId = s.sessionId
  control : s'.controllingAddr = s.controllingAddr
  events : ∀ e ∈ out, e.quiet = true

theorem setSlot_eq_self (t : ViewerTable) (i : SlotId) : t.setSlot i (t.slots i) = t := by
  unfold ViewerTable.setSlot
  rw [Function.update_eq_self]

theorem Undisturbed.same {s s' : ScreenHostSession} (i : SlotId) {out : List ScreenHostEvent}
    (hviewers : s'.viewers = s.viewers) (hstate : s'.state = s.state)
    (hid : s'.sessionId = s.sessionId) (hcontrol : s'.controllingAddr = s.controllingAddr)
    (hout : ∀ e ∈ out, e.quiet = true) : Undisturbed s s' i out := by
  refine ⟨⟨s.slot i, SameSeat.refl _, ?_⟩, hstate, hid, hcontrol, hout⟩
  rw [hviewers]
  exact (setSlot_eq_self s.viewers i).symm

@[simp] theorem slot_setSlot_self (s : ScreenHostSession) (i : SlotId) (slot : ViewerSlot) :
    (s.setSlot i slot).slot i = slot :=
  ViewerTable.setSlot_self s.viewers i slot

/-- Control is handed over, and told when that changes it. -/
theorem handOverControl_eq (s : ScreenHostSession) (addrPacked : UInt64) :
    s.handOverControl addrPacked =
      ({ s with controllingAddr := addrPacked },
        if s.controllingAddr = addrPacked then [] else [.controllerChange addrPacked]) := by
  unfold handOverControl
  split
  · next h =>
    subst h
    rfl
  · rfl

theorem reportFeedbackIfDue_spec (s : ScreenHostSession) (nowUs : UInt64) :
    (s.reportFeedbackIfDue nowUs).1.viewers = s.viewers ∧
      (s.reportFeedbackIfDue nowUs).1.state = s.state ∧
      (s.reportFeedbackIfDue nowUs).1.sessionId = s.sessionId ∧
      (s.reportFeedbackIfDue nowUs).1.controllingAddr = s.controllingAddr ∧
      ∀ e ∈ (s.reportFeedbackIfDue nowUs).2, e.quiet = true := by
  unfold reportFeedbackIfDue
  split
  · exact ⟨rfl, rfl, rfl, rfl, nofun⟩
  · split
    · exact ⟨rfl, rfl, rfl, rfl, nofun⟩
    · exact ⟨rfl, rfl, rfl, rfl, ScreenHostEvent.quiet_singleton rfl⟩

/-! ## Messages of a viewer -/

/-- A viewer that had not started starts. -/
def started (s : ScreenHostSession) (i : SlotId) : ScreenHostSession :=
  { s.setSlot i { s.slot i with started := true } with state := .streaming }

/-- A viewer gives up control. -/
def released (s : ScreenHostSession) (i : SlotId) : ScreenHostSession :=
  { s.setSlot i { s.slot i with lastInputUs := 0 } with controllingAddr := 0 }

/-- The viewer's input is not passed on. -/
def denied (s : ScreenHostSession) (i : SlotId) (payload : Bytes) : ScreenHostSession :=
  ({ s with inputDenied := s.inputDenied + 1 } : ScreenHostSession).setSlot i
    { s.slot i with input := ((s.slot i).input.handlePacket payload).1 }

/-- The viewer's input is passed on, and the viewer is in control. -/
def applied (s : ScreenHostSession) (i : SlotId) (payload : Bytes) (nowUs : UInt64) :
    ScreenHostSession :=
  { s.setSlot i { s.slot i with
      lastInputUs := nowUs
      input := ((s.slot i).input.handlePacket payload).1 } with
    controllingAddr := (s.slot i).addrPacked }

theorem applyInput_denied {s : ScreenHostSession} {i : SlotId} {nowUs : UInt64}
    (h : s.viewers.higherPriorityIsDriving i nowUs = true) (payload : Bytes) :
    s.applyInput payload i nowUs = (s.denied i payload, []) := by
  unfold applyInput
  dsimp only
  rw [if_pos h]
  rfl

theorem applyInput_applied {s : ScreenHostSession} {i : SlotId} {nowUs : UInt64}
    (h : s.viewers.higherPriorityIsDriving i nowUs = false) (payload : Bytes) :
    s.applyInput payload i nowUs =
      (s.applied i payload nowUs,
        (if s.controllingAddr = (s.slot i).addrPacked then []
          else [.controllerChange (s.slot i).addrPacked]) ++
          (((s.slot i).input.handlePacket payload).2.2).map ScreenHostEvent.input) := by
  unfold applyInput
  dsimp only
  rw [if_neg (by rw [h]; decide), handOverControl_eq]
  refine Prod.ext ?_ rfl
  simp only [applied, setSlot, slot, ViewerTable.setSlot, Function.update_idem, Function.update_self]

/-- What a message of a viewer does. -/
inductive FromViewer (s : ScreenHostSession) (i : SlotId) (type : MsgType) (payload : Bytes)
    (nowUs : UInt64) : ScreenHostSession → List ScreenHostEvent → Prop
  | undisturbed {s' : ScreenHostSession} {out : List ScreenHostEvent}
      (hinput : type = .inputEvent → s.state ≠ .streaming) (h : Undisturbed s s' i out) :
      FromViewer s i type payload nowUs s' out
  | started {out : List ScreenHostEvent} (htype : type = .start)
      (hout : ∀ e ∈ out, e.quiet = true) : FromViewer s i type payload nowUs (s.started i) out
  | denied (htype : type = .inputEvent) (hstreaming : s.state = .streaming)
      (hdriven : s.viewers.higherPriorityIsDriving i nowUs = true) :
      FromViewer s i type payload nowUs (s.denied i payload) []
  | applied (htype : type = .inputEvent) (hstreaming : s.state = .streaming)
      (hdriven : s.viewers.higherPriorityIsDriving i nowUs = false) :
      FromViewer s i type payload nowUs (s.applied i payload nowUs)
        ((if s.controllingAddr = (s.slot i).addrPacked then []
          else [.controllerChange (s.slot i).addrPacked]) ++
          (((s.slot i).input.handlePacket payload).2.2).map ScreenHostEvent.input)
  | released (htype : type = .setFocus) (hstreaming : s.state = .streaming)
      (hfocus : parseSetFocus payload = some false)
      (hcontrol : s.controllingAddr = 0 ∨ s.controllingAddr = (s.slot i).addrPacked) :
      FromViewer s i type payload nowUs (s.released i)
        ((if s.controllingAddr = 0 then [] else [.controllerChange 0]) ++ [.focus false])

theorem FromViewer.unchanged (s : ScreenHostSession) (i : SlotId) (type : MsgType)
    (payload : Bytes) (nowUs : UInt64) {out : List ScreenHostEvent}
    (hinput : type = .inputEvent → s.state ≠ .streaming) (hout : ∀ e ∈ out, e.quiet = true) :
    FromViewer s i type payload nowUs s out :=
  .undisturbed hinput (Undisturbed.same i rfl rfl rfl rfl hout)

theorem handleStart_spec (s : ScreenHostSession) (i : SlotId) (payload : Bytes) (nowUs : UInt64) :
    FromViewer s i .start payload nowUs (s.handleStart i).1 (s.handleStart i).2 := by
  unfold handleStart
  split
  · exact .unchanged s i _ _ _ nofun nofun
  · dsimp only
    split
    · next hstreaming =>
      have heq : s.setSlot i { s.slot i with started := true } = s.started i := by
        unfold ScreenHostSession.started setSlot
        rw [← hstreaming]
      rw [heq]
      exact .started rfl (ScreenHostEvent.quiet_singleton rfl)
    · exact .started rfl (ScreenHostEvent.quiet_singleton rfl)

theorem handleSetFocus_spec (s : ScreenHostSession) (i : SlotId) {payload : Bytes} {focused : Bool}
    (hstreaming : s.state = .streaming) (hfocus : parseSetFocus payload = some focused)
    (nowUs : UInt64) :
    FromViewer s i .setFocus payload nowUs (s.handleSetFocus i focused).1
      (s.handleSetFocus i focused).2 := by
  unfold handleSetFocus
  split
  · exact .unchanged s i _ _ _ nofun nofun
  · next hcontrol =>
    cases focused with
    | true =>
      exact .unchanged s i _ _ _ nofun (ScreenHostEvent.quiet_singleton rfl)
    | false =>
      have hmine : s.controllingAddr = 0 ∨ s.controllingAddr = (s.slot i).addrPacked := by
        by_cases hzero : s.controllingAddr = 0
        · exact .inl hzero
        · exact .inr (not_not.mp fun hne => hcontrol ⟨hzero, hne⟩)
      dsimp only
      rw [if_pos (by decide), handOverControl_eq]
      exact .released rfl hstreaming hfocus hmine

theorem handleClipboard_spec (s : ScreenHostSession) (i : SlotId) (chunk : ClipboardChunkView) :
    Undisturbed s (s.handleClipboard i chunk).1 i (s.handleClipboard i chunk).2 := by
  have hwrite : ∀ (clip : ClipboardSync) (out : List ScreenHostEvent),
      (∀ e ∈ out, e.quiet = true) →
      Undisturbed s (s.setSlot i { s.slot i with clip := clip }) i out := by
    intro clip out hout
    exact ⟨⟨{ s.slot i with clip := clip }, ⟨rfl, rfl, rfl, rfl, rfl, rfl, rfl, rfl, rfl⟩, rfl⟩,
      rfl, rfl, rfl, hout⟩
  unfold handleClipboard
  dsimp only
  split
  · exact hwrite _ _ (ScreenHostEvent.quiet_toList (fun _ => rfl) _)
  · exact hwrite _ _ nofun

theorem handleFromViewer_spec (s : ScreenHostSession) (type : MsgType) (payload : Bytes)
    (i : SlotId) (nowUs : UInt64) :
    FromViewer s i type payload nowUs (s.handleFromViewer type payload i nowUs).1
      (s.handleFromViewer type payload i nowUs).2.1 := by
  have hnone : ∀ type, (type = .inputEvent → s.state ≠ .streaming) →
      FromViewer s i type payload nowUs s [] :=
    fun type hinput => .unchanged s i type payload nowUs hinput nofun
  unfold handleFromViewer
  dsimp only
  split
  · exact handleStart_spec s i payload nowUs
  · split
    · exact hnone _ nofun
    · next m _ =>
      exact .unchanged s i _ _ _ nofun (ScreenHostEvent.quiet_toList (f := ScreenHostEvent.send)
        (fun _ => rfl) (buildPong kMaxDatagram s.sessionId m))
  · split
    · exact .unchanged s i _ _ _ nofun (ScreenHostEvent.quiet_singleton rfl)
    · exact hnone _ nofun
  · split
    · next hstreaming =>
      have hstate : s.state = .streaming := hstreaming
      cases hdriven : s.viewers.higherPriorityIsDriving i nowUs with
      | true =>
        rw [applyInput_denied hdriven]
        exact .denied rfl hstate hdriven
      | false =>
        rw [applyInput_applied hdriven]
        exact .applied rfl hstate hdriven
    · next hidle => exact hnone _ fun _ hstreaming => hidle hstreaming
  · split
    · next hstreaming =>
      split
      · exact hnone _ nofun
      · next focused hfocus =>
        exact handleSetFocus_spec s i hstreaming hfocus nowUs
    · exact hnone _ nofun
  · split
    · exact hnone _ nofun
    · next m hm =>
      -- the feedback is noted in the slot, and reported when it is time
      have hreport := reportFeedbackIfDue_spec
        { s.setSlot i { s.slot i with feedback := m, haveFeedback := true } with
          feedbackPending := true } nowUs
      rcases hreport with ⟨hviewers, hstate, hid, hcontrol, hout⟩
      exact .undisturbed nofun ⟨⟨{ s.slot i with feedback := m, haveFeedback := true },
        ⟨rfl, rfl, rfl, rfl, rfl, rfl, rfl, rfl, rfl⟩, hviewers⟩, hstate, hid, hcontrol, hout⟩
  · split
    · split
      · exact hnone _ nofun
      · exact .unchanged s i _ _ _ nofun (ScreenHostEvent.quiet_singleton rfl)
    · exact hnone _ nofun
  · split
    · exact .unchanged s i _ _ _ nofun (ScreenHostEvent.quiet_toList
        (f := ScreenHostEvent.invalidateRef) (fun _ => rfl) (parseInvalidateRef payload))
    · exact hnone _ nofun
  · split
    · split
      · exact hnone _ nofun
      · next chunk hchunk => exact .undisturbed nofun (handleClipboard_spec s i chunk)
    · exact hnone _ nofun
  · exact hnone _ fun hinput => absurd hinput ‹type = .inputEvent → False›

/-! ## Viewers that leave -/

/-- The state that goes with a table. -/
def stateOf (t : ViewerTable) : ScreenHostState :=
  if t.empty then .idle else if t.anyStarted then .streaming else .ready

/-- What dropping the viewer of a slot leaves. -/
structure Dropped (s : ScreenHostSession) (budget : Option ViewerBudget) (i : SlotId)
    (c : HostCall) : Prop where
  table : c.session.viewers.Consistent
  kept : ∀ j, j ≠ i → (s.slot j).active = true → c.session.slot j = s.slot j
  left : ∀ j, (c.session.slot j).active = true → j ≠ i ∧ (s.slot j).active = true
  count : c.session.viewers.count + 1 = s.viewers.count
  nextJoinOrder : c.session.viewers.nextJoinOrder = s.viewers.nextJoinOrder
  budget : c.budget = ViewerTable.givePlaces budget 1
  state : c.session.state = stateOf c.session.viewers
  sessionId : c.session.sessionId = if c.session.viewers.empty then 0 else s.sessionId
  control : c.session.controllingAddr =
    if c.session.viewers.empty = true ∨ s.controllingAddr = (s.slot i).addrPacked then 0
    else s.controllingAddr
  events : c.events =
    [.viewerLeave (s.slot i).addrPacked c.session.viewers.viewerCount] ++
      (if c.session.controllingAddr = s.controllingAddr then [] else [.controllerChange 0]) ++
      if c.session.viewers.empty then [.disconnect] else []

theorem givePlaces_give (budget : Option ViewerBudget) (n : Nat) :
    ViewerTable.givePlaces (ViewerTable.givePlaces budget n) 0 = ViewerTable.givePlaces budget n := by
  cases budget with
  | none => rfl
  | some b => rfl

theorem drop_eq {t : ViewerTable} {i : SlotId} (h : (t.slots i).active = true)
    (budget : Option ViewerBudget) :
    t.drop budget i = (({ t.setSlot i {} with count := t.count - 1 } : ViewerTable).publish,
      ViewerTable.givePlaces budget 1) := by
  unfold ViewerTable.drop
  rw [if_neg (by simp [h])]

theorem dropViewer_spec {s : ScreenHostSession} (htable : s.viewers.Consistent) {i : SlotId}
    (hactive : (s.slot i).active = true) (budget : Option ViewerBudget) :
    Dropped s budget i (s.dropViewer budget i) := by
  obtain ⟨hconsistent, hcount⟩ := htable.drop budget hactive
  have hdrop := drop_eq hactive budget
  have hslot : ∀ j, (s.viewers.drop budget i).1.slots j = if j = i then {} else s.slot j := by
    intro j
    rw [hdrop]
    exact ViewerTable.setSlot_slots s.viewers i j {}
  have hgone : ∀ j, ((s.viewers.drop budget i).1.slots j).active = true →
      j ≠ i ∧ (s.slot j).active = true := by
    intro j hj
    rw [hslot] at hj
    by_cases hji : j = i
    · rw [if_pos hji] at hj
      cases hj
    · rw [if_neg hji] at hj
      exact ⟨hji, hj⟩
  have hbudget : (s.viewers.drop budget i).2 = ViewerTable.givePlaces budget 1 := by rw [hdrop]
  have hnext : (s.viewers.drop budget i).1.nextJoinOrder = s.viewers.nextJoinOrder := by
    rw [hdrop]
    rfl
  unfold dropViewer
  generalize s.viewers.drop budget i = dropped at hconsistent hcount hslot hgone hbudget hnext
  obtain ⟨viewers, rest⟩ := dropped
  dsimp only at hconsistent hcount hslot hgone hbudget hnext ⊢
  subst hbudget
  by_cases hempty : viewers.empty = true
  · -- the last viewer: the session is over
    have hnone := hconsistent.empty_iff.mp hempty
    have hzero : viewers.count = 0 := of_decide_eq_true hempty
    rw [if_pos hempty]
    unfold disconnect
    dsimp only [ViewerTable.clear]
    rw [handOverControl_eq, hzero, givePlaces_give]
    refine ⟨ViewerTable.Consistent.of_empty (fun _ => rfl) rfl rfl, ?_, ?_, ?_, hnext, rfl, rfl,
      rfl, rfl, ?_⟩
    · intro j hji hj
      have hsame := hslot j
      rw [if_neg hji] at hsame
      have hnot := hnone j
      rw [hsame, hj] at hnot
      cases hnot
    · intro j hj
      cases hj
    · change 0 + 1 = s.viewers.count
      omega
    · have hcountZero : viewers.viewerCount = 0 := by
        rw [hconsistent.viewerCount]
        unfold ViewerTable.activeSlots
        rw [List.length_map, ← hconsistent.counted, hzero]
      rw [hcountZero]
      by_cases hctrl : s.controllingAddr = 0
      · simp only [hctrl]
        rfl
      · have hctrl' : ¬ 0 = s.controllingAddr := fun h => hctrl h.symm
        rw [if_neg hctrl, if_neg hctrl']
        rfl
  · have hrunning : viewers.empty = false := Bool.eq_false_iff.mpr hempty
    rw [if_neg hempty]
    unfold refreshState
    have hstate : (if viewers.anyStarted = true then ScreenHostState.streaming else .ready) =
        stateOf viewers := (if_neg hempty).symm
    have hkept : ∀ j, j ≠ i → (s.slot j).active = true → viewers.slots j = s.slot j := by
      intro j hji _
      rw [hslot j, if_neg hji]
    dsimp only
    by_cases hctrl : s.controllingAddr = (s.slot i).addrPacked
    · rw [if_pos hctrl, handOverControl_eq]
      have hne : ¬ s.controllingAddr = 0 := by
        rw [hctrl]
        exact htable.addr_ne_zero i hactive
      have hne' : ¬ 0 = s.controllingAddr := fun h => hne h.symm
      refine ⟨hconsistent, hkept, hgone, hcount, hnext, rfl, hstate, ?_, ?_, ?_⟩
      · dsimp only
        rw [hrunning]
        rfl
      · dsimp only
        rw [if_pos (Or.inr hctrl)]
      · dsimp only
        rw [if_neg hne, if_neg hne', hrunning]
        rfl
    · rw [if_neg hctrl]
      refine ⟨hconsistent, hkept, hgone, hcount, hnext, rfl, hstate, ?_, ?_, ?_⟩
      · dsimp only
        rw [hrunning]
        rfl
      · dsimp only
        rw [if_neg]
        rintro (hemp | heq)
        · exact hempty hemp
        · exact hctrl heq
      · dsimp only
        rw [if_pos rfl, hrunning]
        rfl

/-! ## Viewers that come -/

/-- The slot of a viewer that says hello again. -/
def greeted (slot : ViewerSlot) (m : Hello) (nowUs fromPacked : UInt64) : ViewerSlot :=
  { slot with
    addrPacked := fromPacked
    name := m.clientName
    wantsAudio := m.features &&& kClientWantsAudio ≠ 0
    lastRecvUs := nowUs }

/-- What a HELLO of a known viewer leaves. -/
structure WelcomedBack (s : ScreenHostSession) (i : SlotId) (m : Hello) (nowUs fromPacked : UInt64)
    (s' : ScreenHostSession) (out : List ScreenHostEvent) : Prop where
  table : s'.viewers.Consistent
  slots : s'.viewers.slots =
    Function.update s.viewers.slots i (greeted (s.slot i) m nowUs fromPacked)
  count : s'.viewers.count = s.viewers.count
  nextJoinOrder : s'.viewers.nextJoinOrder = s.viewers.nextJoinOrder
  state : s'.state = s.state
  sessionId : s'.sessionId = s.sessionId
  control : s'.controllingAddr = s.controllingAddr
  events : ∀ e ∈ out, e.quiet = true

theorem sendHelloAck_quiet (s : ScreenHostSession) : ∀ e ∈ s.sendHelloAck, e.quiet = true :=
  ScreenHostEvent.quiet_toList (fun _ => rfl) _

theorem sendReject_quiet (reason : RejectReason) : ∀ e ∈ sendReject reason, e.quiet = true :=
  ScreenHostEvent.quiet_toList (fun _ => rfl) _

theorem welcomeBack_spec {s : ScreenHostSession} (htable : s.viewers.Consistent) {i : SlotId}
    (hactive : (s.slot i).active = true) (m : Hello) (nowUs : UInt64) {fromPacked : UInt64}
    (hne : fromPacked ≠ 0)
    (hfree : ∀ j, j ≠ i → (s.slot j).active = true → (s.slot j).addrPacked ≠ fromPacked) :
    WelcomedBack s i m nowUs fromPacked (s.welcomeBack i m nowUs fromPacked).1
      (s.welcomeBack i m nowUs fromPacked).2 := by
  have hrebind := ViewerTable.rebind_eq (t := s.viewers) hactive hne
  have hconsistent := htable.rebind hfree
  have hrebound : ((s.viewers.rebind i fromPacked).slots i).active = true := by
    rw [hrebind.1, ViewerTable.setSlot_self]
    exact hactive
  have hname := ViewerTable.setName_eq m.clientName hrebound
  have hnamed : (((s.viewers.rebind i fromPacked).setName i m.clientName).slots i).active = true := by
    rw [hname.1, ViewerTable.setSlot_self]
    exact hrebound
  have haudio := ViewerTable.setWantsAudio_eq (m.features &&& kClientWantsAudio ≠ 0) hnamed
  have hlast := (hconsistent.setName i m.clientName).setWantsAudio i
    (m.features &&& kClientWantsAudio ≠ 0)
  -- the slots after the three writes
  have hslots : (((s.viewers.rebind i fromPacked).setName i m.clientName).setWantsAudio i
      (m.features &&& kClientWantsAudio ≠ 0)).slots =
      Function.update s.viewers.slots i { s.slot i with
        addrPacked := fromPacked
        name := m.clientName
        wantsAudio := m.features &&& kClientWantsAudio ≠ 0 } := by
    rw [haudio.1]
    unfold ViewerTable.setSlot
    dsimp only
    rw [hname.1]
    unfold ViewerTable.setSlot
    dsimp only
    rw [hrebind.1]
    unfold ViewerTable.setSlot
    simp only [Function.update_idem, Function.update_self]
    rfl
  have hcount := haudio.2.1.trans (hname.2.1.trans hrebind.2.1)
  have hnext := haudio.2.2.trans (hname.2.2.trans hrebind.2.2)
  unfold welcomeBack
  dsimp only
  generalize ((s.viewers.rebind i fromPacked).setName i m.clientName).setWantsAudio i
    (m.features &&& kClientWantsAudio ≠ 0) = viewers at hlast hslots hcount hnext
  have hslot : viewers.slots i = { s.slot i with
      addrPacked := fromPacked
      name := m.clientName
      wantsAudio := m.features &&& kClientWantsAudio ≠ 0 } := by
    rw [hslots, Function.update_self]
  have hstill : (viewers.slots i).active = true := by
    rw [hslot]
    exact hactive
  refine ⟨?_, ?_, hcount, hnext, rfl, rfl, rfl, sendHelloAck_quiet _⟩
  · exact hlast.write hstill hstill rfl rfl rfl rfl rfl
  · change Function.update viewers.slots i { viewers.slots i with lastRecvUs := nowUs } = _
    rw [hslot, hslots, Function.update_idem]
    rfl

/-- The slot of a new viewer. -/
def newViewer (m : Hello) (nowUs fromPacked : UInt64) (joinOrder : Nat) : ViewerSlot :=
  { active := true
    clientId := m.clientId
    addrPacked := fromPacked
    joinOrder := joinOrder
    lastRecvUs := nowUs
    name := m.clientName
    wantsAudio := m.features &&& kClientWantsAudio ≠ 0 }

/-- The session id once the first viewer has been let in. -/
def sessionIdWith (s : ScreenHostSession) (random : Option UInt32) : UInt32 :=
  if s.viewers.empty then random.getD 0 else s.sessionId

/-- What the admission of a viewer leaves. -/
structure Admitted (s : ScreenHostSession) (budget : Option ViewerBudget) (m : Hello)
    (nowUs fromPacked : UInt64) (random : Option UInt32) (i : SlotId) (c : HostCall) : Prop where
  table : c.session.viewers.Consistent
  free : (s.slot i).active = false
  slots : c.session.viewers.slots =
    Function.update s.viewers.slots i (newViewer m nowUs fromPacked s.viewers.nextJoinOrder)
  count : c.session.viewers.count = s.viewers.count + 1
  nextJoinOrder : c.session.viewers.nextJoinOrder = s.viewers.nextJoinOrder + 1
  budget : ViewerTable.takePlace budget = some c.budget
  state : c.session.state = stateOf c.session.viewers
  begun : s.viewers.empty = true → random.getD 0 ≠ 0
  sessionId : c.session.sessionId = s.sessionIdWith random
  control : c.session.controllingAddr = s.controllingAddr
  events : ∀ e ∈ c.events,
    e.quiet = true ∨ ∃ n, e = .viewerJoin fromPacked n m.clientName

/-- What a HELLO of an unknown client does. -/
inductive Welcomed (s : ScreenHostSession) (budget : Option ViewerBudget) (m : Hello)
    (nowUs fromPacked : UInt64) (random : Option UInt32) : HostCall → Prop
  | noSession (hempty : s.viewers.empty = true) (hrandom : random.getD 0 = 0) :
      Welcomed s budget m nowUs fromPacked random
        { session := { s with state := .idle }, budget := budget, events := sendReject .none }
  | busy (hbegun : s.viewers.empty = true → random.getD 0 ≠ 0)
      (hfull : (∀ i, (s.slot i).active = true) ∨ ViewerTable.takePlace budget = none) :
      Welcomed s budget m nowUs fromPacked random
        { session := { s with sessionId := s.sessionIdWith random }
          budget := budget
          events := sendReject .busy }
  | admitted {i : SlotId} {c : HostCall}
      (h : Admitted s budget m nowUs fromPacked random i c) :
      Welcomed s budget m nowUs fromPacked random c

theorem welcome_admitViewer {s : ScreenHostSession} (htable : s.viewers.Consistent)
    {budget budget' : Option ViewerBudget} {m : Hello} {nowUs fromPacked : UInt64}
    (random : Option UInt32) {viewers : ViewerTable} {i : SlotId}
    (hbegun : s.viewers.empty = true → random.getD 0 ≠ 0)
    (haddr : ∀ j, (s.slot j).active = true → (s.slot j).addrPacked ≠ fromPacked)
    (hclient : ∀ j, (s.slot j).active = true → (s.slot j).clientId ≠ m.clientId)
    (hadm : s.viewers.admitViewer budget m.clientId fromPacked nowUs m.clientName =
      some (viewers, budget', i)) :
    Admitted s budget m nowUs fromPacked random i
      { session := refreshState { s with
          sessionId := s.sessionIdWith random
          viewers := viewers.setWantsAudio i (m.features &&& kClientWantsAudio ≠ 0) }
        budget := budget'
        events := (if s.viewers.empty then [ScreenHostEvent.hello m] else []) ++
          [.viewerJoin fromPacked (viewers.setWantsAudio i
            (m.features &&& kClientWantsAudio ≠ 0)).viewerCount m.clientName] ++
          (refreshState { s with
            sessionId := s.sessionIdWith random
            viewers := viewers.setWantsAudio i
              (m.features &&& kClientWantsAudio ≠ 0) }).sendHelloAck } := by
  obtain ⟨hconsistent, hcount⟩ := htable.admitViewer hadm haddr hclient
  obtain ⟨-, hfree, hplace, hviewers⟩ := ViewerTable.admitViewer_eq_some hadm
  have hslots : viewers.slots = Function.update s.viewers.slots i
      { active := true, clientId := m.clientId, addrPacked := fromPacked
        joinOrder := s.viewers.nextJoinOrder, lastRecvUs := nowUs, name := m.clientName } := by
    rw [hviewers]
    rfl
  have hnext : viewers.nextJoinOrder = s.viewers.nextJoinOrder + 1 := by
    rw [hviewers]
    rfl
  have hactive : (viewers.slots i).active = true := by rw [hslots, Function.update_self]
  have haudio := ViewerTable.setWantsAudio_eq (m.features &&& kClientWantsAudio ≠ 0) hactive
  have hlast := hconsistent.setWantsAudio i (m.features &&& kClientWantsAudio ≠ 0)
  generalize viewers.setWantsAudio i (m.features &&& kClientWantsAudio ≠ 0) = final
    at haudio hlast
  have hrunning : final.empty = false := by
    unfold ViewerTable.empty
    rw [haudio.2.1, hcount]
    exact decide_eq_false (Nat.succ_ne_zero _)
  refine ⟨hlast, hfree, ?_, haudio.2.1.trans hcount, haudio.2.2.trans hnext, hplace, ?_, hbegun, rfl,
    rfl, ?_⟩
  · change final.slots = _
    rw [haudio.1]
    unfold ViewerTable.setSlot
    dsimp only
    rw [hslots, Function.update_idem, Function.update_self]
    rfl
  · change (if final.anyStarted = true then ScreenHostState.streaming else .ready) = stateOf final
    unfold stateOf
    rw [hrunning]
    rfl
  · intro e he
    rcases List.mem_append.mp he with hfront | hack
    · rcases List.mem_append.mp hfront with hhello | hjoin
      · left
        split at hhello
        · exact ScreenHostEvent.quiet_singleton rfl e hhello
        · cases hhello
      · exact .inr ⟨_, List.mem_singleton.mp hjoin⟩
    · exact .inl (sendHelloAck_quiet _ e hack)

theorem welcome_spec {s : ScreenHostSession} (htable : s.viewers.Consistent)
    (budget : Option ViewerBudget) (m : Hello) (nowUs : UInt64) {fromPacked : UInt64}
    (hne : fromPacked ≠ 0) (random : Option UInt32)
    (haddr : ∀ j, (s.slot j).active = true → (s.slot j).addrPacked ≠ fromPacked)
    (hclient : ∀ j, (s.slot j).active = true → (s.slot j).clientId ≠ m.clientId) :
    Welcomed s budget m nowUs fromPacked random
      (s.welcome budget m nowUs fromPacked random).1 := by
  unfold welcome beginSession
  dsimp only
  by_cases hempty : s.viewers.empty = true
  · rw [if_pos hempty]
    have hid : s.sessionIdWith random = random.getD 0 := if_pos hempty
    by_cases hrandom : random.getD 0 = 0
    · rw [if_pos hrandom]
      exact .noSession hempty hrandom
    · rw [if_neg hrandom, ← hid]
      dsimp only
      rw [if_neg (by simp)]
      cases hadm : s.viewers.admitViewer budget m.clientId fromPacked nowUs m.clientName with
      | none =>
        exact .busy (fun _ => hrandom) ((ViewerTable.admitViewer_eq_none hadm).resolve_left hne)
      | some result =>
        obtain ⟨viewers, budget', i⟩ := result
        have hspec := welcome_admitViewer htable random (fun _ => hrandom) haddr hclient hadm
        exact .admitted hspec
  · rw [if_neg hempty]
    have hid : s.sessionIdWith random = s.sessionId := if_neg hempty
    dsimp only
    rw [if_neg (by simp)]
    cases hadm : s.viewers.admitViewer budget m.clientId fromPacked nowUs m.clientName with
    | none =>
      have hspec : Welcomed s budget m nowUs fromPacked random
          { session := { s with sessionId := s.sessionIdWith random }
            budget := budget
            events := sendReject .busy } :=
        .busy (fun h => absurd h hempty) ((ViewerTable.admitViewer_eq_none hadm).resolve_left hne)
      rw [hid] at hspec
      exact hspec
    | some result =>
      obtain ⟨viewers, budget', i⟩ := result
      have hspec := welcome_admitViewer htable random (fun h => absurd h hempty) haddr hclient
        hadm
      rw [hid] at hspec
      exact .admitted hspec

end ScreenHostSession

end Deskhub
