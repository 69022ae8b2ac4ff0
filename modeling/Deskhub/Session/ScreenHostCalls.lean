import Deskhub.Session.ScreenHostSteps

/-!
# The calls of a screen session

A call is a message of a viewer, a HELLO, or some viewers leaving. `call_spec` says which,
and what it does in terms of the handlers.
-/

namespace Deskhub

/-- A HELLO that can be read and comes from an address. -/
structure HelloCall where
  m : Hello
  nowUs : UInt64
  fromPacked : UInt64
  random : Option UInt32

def ScreenHostCall.helloOf : ScreenHostCall → Option HelloCall
  | .handlePacket pkt nowUs fromPacked random =>
      match parseCommonHeader pkt with
      | none => none
      | some h =>
          if h.type = .hello ∧ fromPacked ≠ 0 then
            (parseHello (payloadOf pkt)).map fun m => ⟨m, nowUs, fromPacked, random⟩
          else none
  | _ => none

/-- A message of a viewer of the session. -/
structure ViewerMessage where
  slot : SlotId
  type : MsgType
  payload : Bytes
  nowUs : UInt64

namespace ScreenHostSession

def messageOf (s : ScreenHostSession) : ScreenHostCall → Option ViewerMessage
  | .handlePacket pkt nowUs fromPacked _ =>
      match parseCommonHeader pkt with
      | none => none
      | some h =>
          if h.type = .hello ∨ s.inSession h.sessionId = false then none
          else (s.viewers.find fromPacked).map fun i => ⟨i, h.type, payloadOf pkt, nowUs⟩
  | _ => none

/-- The viewer of a slot has been heard. -/
def seen (s : ScreenHostSession) (i : SlotId) (nowUs : UInt64) : ScreenHostSession :=
  s.setSlot i { s.slot i with lastRecvUs := nowUs }

theorem messageOf_active {s : ScreenHostSession} {call : ScreenHostCall} {msg : ViewerMessage}
    (h : s.messageOf call = some msg) : (s.slot msg.slot).active = true := by
  unfold messageOf at h
  split at h
  · split at h
    · cases h
    · split at h
      · cases h
      · obtain ⟨i, hfind, rfl⟩ := Option.map_eq_some_iff.mp h
        exact (ViewerTable.find_eq_some hfind).2.1
  · cases h

theorem slot_seen (s : ScreenHostSession) (i j : SlotId) (nowUs : UInt64) :
    (s.seen i nowUs).slot j = if j = i then { s.slot i with lastRecvUs := nowUs } else s.slot j :=
  ViewerTable.setSlot_slots s.viewers i j _

theorem seen_consistent {s : ScreenHostSession} (htable : s.viewers.Consistent) {i : SlotId}
    (hactive : (s.slot i).active = true) (nowUs : UInt64) :
    (s.seen i nowUs).viewers.Consistent :=
  htable.write hactive hactive rfl rfl rfl rfl rfl

/-! ## Who sits where -/

/-- The same viewers in the same slots. -/
structure SameSeats (s s' : ScreenHostSession) : Prop where
  active : ∀ j, (s'.slot j).active = (s.slot j).active
  clientId : ∀ j, (s'.slot j).clientId = (s.slot j).clientId
  addrPacked : ∀ j, (s'.slot j).addrPacked = (s.slot j).addrPacked
  joinOrder : ∀ j, (s'.slot j).joinOrder = (s.slot j).joinOrder
  count : s'.viewers.count = s.viewers.count
  nextJoinOrder : s'.viewers.nextJoinOrder = s.viewers.nextJoinOrder

theorem SameSeats.of_viewers {s s' : ScreenHostSession} (h : s'.viewers = s.viewers) :
    SameSeats s s' := by
  have hslot : s'.slot = s.slot := by
    unfold ScreenHostSession.slot
    rw [h]
  refine ⟨?_, ?_, ?_, ?_, ?_, ?_⟩
  iterate 4
    intro j
    rw [hslot]
  · rw [h]
  · rw [h]

theorem SameSeats.refl (s : ScreenHostSession) : SameSeats s s := .of_viewers rfl

theorem SameSeats.trans {s s' s'' : ScreenHostSession} (h : SameSeats s s')
    (h' : SameSeats s' s'') : SameSeats s s'' where
  active j := (h'.active j).trans (h.active j)
  clientId j := (h'.clientId j).trans (h.clientId j)
  addrPacked j := (h'.addrPacked j).trans (h.addrPacked j)
  joinOrder j := (h'.joinOrder j).trans (h.joinOrder j)
  count := h'.count.trans h.count
  nextJoinOrder := h'.nextJoinOrder.trans h.nextJoinOrder

/-- A write to one slot that keeps who is in it. -/
theorem SameSeats.of_setSlot {s s' : ScreenHostSession} {i : SlotId} {slot : ViewerSlot}
    (hviewers : s'.viewers = s.viewers.setSlot i slot)
    (hactive : slot.active = (s.slot i).active) (hclient : slot.clientId = (s.slot i).clientId)
    (haddr : slot.addrPacked = (s.slot i).addrPacked)
    (horder : slot.joinOrder = (s.slot i).joinOrder) : SameSeats s s' := by
  have hslot : ∀ j, s'.slot j = if j = i then slot else s.slot j := by
    intro j
    unfold ScreenHostSession.slot
    rw [hviewers]
    exact ViewerTable.setSlot_slots s.viewers i j slot
  have hfield : ∀ {α : Type} (f : ViewerSlot → α), f slot = f (s.slot i) →
      ∀ j, f (s'.slot j) = f (s.slot j) := by
    intro α f hf j
    rw [hslot]
    by_cases hj : j = i
    · rw [if_pos hj, hj, hf]
    · rw [if_neg hj]
  refine ⟨hfield _ hactive, hfield _ hclient, hfield _ haddr, hfield _ horder, ?_, ?_⟩
  · rw [hviewers]
    rfl
  · rw [hviewers]
    rfl

theorem seen_seats (s : ScreenHostSession) (i : SlotId) (nowUs : UInt64) :
    SameSeats s (s.seen i nowUs) :=
  SameSeats.of_setSlot rfl rfl rfl rfl rfl

/-- A message keeps the table, and who sits where. -/
theorem FromViewer.seats {s s' : ScreenHostSession} {i : SlotId} {type : MsgType}
    {payload : Bytes} {nowUs : UInt64} {out : List ScreenHostEvent}
    (h : FromViewer s i type payload nowUs s' out) (htable : s.viewers.Consistent)
    (hactive : (s.slot i).active = true) : s'.viewers.Consistent ∧ SameSeats s s' := by
  cases h with
  | undisturbed _ h =>
    obtain ⟨after, hseat, hviewers⟩ := h.slot
    constructor
    · rw [hviewers]
      exact htable.write hactive (hseat.active.trans hactive) hseat.addrPacked hseat.clientId
        hseat.joinOrder hseat.name hseat.wantsAudio
    · exact .of_setSlot hviewers hseat.active hseat.clientId hseat.addrPacked hseat.joinOrder
  | started _ _ =>
    exact ⟨htable.write hactive hactive rfl rfl rfl rfl rfl, .of_setSlot rfl rfl rfl rfl rfl⟩
  | denied _ _ _ =>
    exact ⟨htable.write hactive hactive rfl rfl rfl rfl rfl, .of_setSlot rfl rfl rfl rfl rfl⟩
  | applied _ _ _ =>
    exact ⟨htable.write hactive hactive rfl rfl rfl rfl rfl, .of_setSlot rfl rfl rfl rfl rfl⟩
  | released _ _ _ _ =>
    exact ⟨htable.write hactive hactive rfl rfl rfl rfl rfl, .of_setSlot rfl rfl rfl rfl rfl⟩

/-- What is the same of two sessions when only the feedback and the settings differ. -/
structure SameCore (s s' : ScreenHostSession) : Prop where
  viewers : s'.viewers = s.viewers
  state : s'.state = s.state
  sessionId : s'.sessionId = s.sessionId
  control : s'.controllingAddr = s.controllingAddr

theorem SameCore.refl (s : ScreenHostSession) : SameCore s s := ⟨rfl, rfl, rfl, rfl⟩

/-! ## The calls -/

/-- Viewers dropped one after another. -/
inductive Drops (s : ScreenHostSession) (budget : Option ViewerBudget) : HostCall → Prop
  | none : Drops s budget { session := s, budget := budget }
  | more {c d : HostCall} {i : SlotId} (h : Drops s budget c)
      (hactive : (c.session.slot i).active = true) (hdropped : Dropped c.session c.budget i d) :
      Drops s budget { d with events := c.events ++ d.events }

/-- The address of a HELLO is freed for its client. -/
inductive Cleared (s : ScreenHostSession) (budget : Option ViewerBudget) (m : Hello)
    (fromPacked : UInt64) : HostCall → Prop
  | kept (h : ∀ i, (s.slot i).active = true → (s.slot i).addrPacked = fromPacked →
      (s.slot i).clientId = m.clientId) :
      Cleared s budget m fromPacked { session := s, budget := budget }
  | dropped {i : SlotId} {c : HostCall} (hactive : (s.slot i).active = true)
      (haddr : (s.slot i).addrPacked = fromPacked) (hclient : (s.slot i).clientId ≠ m.clientId)
      (h : Dropped s budget i c) : Cleared s budget m fromPacked c

/-- What a HELLO does. -/
inductive HelloDone (s : ScreenHostSession) (budget : Option ViewerBudget) (hello : HelloCall) :
    HostCall → Prop
  | back {c : HostCall} {i : SlotId} {s' : ScreenHostSession} {out : List ScreenHostEvent}
      (hcleared : Cleared s budget hello.m hello.fromPacked c)
      (hactive : (c.session.slot i).active = true)
      (hclient : (c.session.slot i).clientId = hello.m.clientId)
      (h : WelcomedBack c.session i hello.m hello.nowUs hello.fromPacked s' out) :
      HelloDone s budget hello
        { session := s', budget := c.budget, events := c.events ++ out }
  | new {c d : HostCall} (hcleared : Cleared s budget hello.m hello.fromPacked c)
      (haddr : ∀ j, (c.session.slot j).active = true →
        (c.session.slot j).addrPacked ≠ hello.fromPacked)
      (hclient : ∀ j, (c.session.slot j).active = true →
        (c.session.slot j).clientId ≠ hello.m.clientId)
      (h : Welcomed c.session c.budget hello.m hello.nowUs hello.fromPacked hello.random d) :
      HelloDone s budget hello { d with events := c.events ++ d.events }

/-- What a call does. -/
inductive Called (s : ScreenHostSession) (budget : Option ViewerBudget) (call : ScreenHostCall) :
    HostCall → Prop
  | message {msg : ViewerMessage} {s' : ScreenHostSession} {out : List ScreenHostEvent}
      (hmsg : s.messageOf call = some msg) (hhello : call.helloOf = none)
      (h : FromViewer (s.seen msg.slot msg.nowUs) msg.slot msg.type msg.payload msg.nowUs s' out) :
      Called s budget call { session := s', budget := budget, events := out }
  | left {c : HostCall} {s' : ScreenHostSession} (before after : List ScreenHostEvent)
      (hmsg : ∀ msg, s.messageOf call = some msg → msg.type = .bye)
      (hhello : call.helloOf = none) (h : Drops s budget c) (hsame : SameCore c.session s')
      (hbefore : ∀ e ∈ before, e.quiet = true) (hafter : ∀ e ∈ after, e.quiet = true) :
      Called s budget call
        { session := s', budget := c.budget, events := before ++ c.events ++ after }
  | hello {hello : HelloCall} {c : HostCall} (hmsg : s.messageOf call = none)
      (hhello : call.helloOf = some hello) (h : HelloDone s budget hello c) : Called s budget call c

theorem knownAt_spec {s : ScreenHostSession} (htable : s.viewers.Consistent)
    (budget : Option ViewerBudget) (m : Hello) {fromPacked : UInt64} (hne : fromPacked ≠ 0) :
    Cleared s budget m fromPacked (s.knownAt budget m fromPacked).1 ∧
      (s.knownAt budget m fromPacked).1.session.viewers.Consistent ∧
      (∀ i, (s.knownAt budget m fromPacked).2 = some i →
        ((s.knownAt budget m fromPacked).1.session.slot i).active = true ∧
        ((s.knownAt budget m fromPacked).1.session.slot i).clientId = m.clientId ∧
        ((s.knownAt budget m fromPacked).1.session.slot i).addrPacked = fromPacked) ∧
      ((s.knownAt budget m fromPacked).2 = none →
        ∀ j, ((s.knownAt budget m fromPacked).1.session.slot j).active = true →
          ((s.knownAt budget m fromPacked).1.session.slot j).addrPacked ≠ fromPacked) := by
  unfold knownAt
  cases hfind : s.viewers.find fromPacked with
  | none =>
    have hnot := ViewerTable.find_eq_none hfind hne
    refine ⟨.kept ?_, htable, nofun, fun _ => hnot⟩
    intro i hactive haddr
    exact absurd haddr (hnot i hactive)
  | some i =>
    obtain ⟨-, hactive, haddr⟩ := ViewerTable.find_eq_some hfind
    dsimp only
    by_cases hclient : (s.slot i).clientId = m.clientId
    · rw [if_neg (fun h => h hclient)]
      refine ⟨.kept ?_, htable, ?_, nofun⟩
      · intro j hj hjaddr
        rw [htable.addr_inj j i hj hactive (hjaddr.trans haddr.symm)]
        exact hclient
      · intro j hj
        cases hj
        exact ⟨hactive, hclient, haddr⟩
    · rw [if_pos hclient]
      have hdropped := dropViewer_spec htable hactive budget
      refine ⟨.dropped hactive haddr hclient hdropped, hdropped.table, nofun, ?_⟩
      intro _ j hj hjaddr
      obtain ⟨hji, hjactive⟩ := hdropped.left j hj
      rw [hdropped.kept j hji hjactive] at hjaddr
      exact hji (htable.addr_inj j i hjactive hactive (hjaddr.trans haddr.symm))

theorem handleHello_spec {s : ScreenHostSession} (htable : s.viewers.Consistent)
    (budget : Option ViewerBudget) {payload : Bytes} {hello : HelloCall}
    (hparse : parseHello payload = some hello.m) (hne : hello.fromPacked ≠ 0) :
    HelloDone s budget hello
      (s.handleHello budget payload hello.nowUs hello.fromPacked hello.random).1 := by
  unfold handleHello
  rw [hparse]
  dsimp only
  rw [if_neg hne]
  obtain ⟨hcleared, hconsistent, hat, hnot⟩ := knownAt_spec htable budget hello.m hne
  generalize s.knownAt budget hello.m hello.fromPacked = found at hcleared hconsistent hat hnot ⊢
  obtain ⟨c, known⟩ := found
  dsimp only at hcleared hconsistent hat hnot ⊢
  cases known with
  | some i =>
    obtain ⟨hactive, hclient, haddr⟩ := hat i rfl
    refine .back hcleared hactive hclient (welcomeBack_spec hconsistent hactive _ _ hne ?_)
    intro j hji hj hjaddr
    exact hji (hconsistent.addr_inj j i hj hactive (hjaddr.trans haddr.symm))
  | none =>
    have hfresh := hnot rfl
    rw [Option.none_or]
    cases hclient : c.session.viewers.findByClient hello.m.clientId with
    | some i =>
      obtain ⟨hactive, hmine⟩ := ViewerTable.findByClient_eq_some hclient
      exact .back hcleared hactive hmine
        (welcomeBack_spec hconsistent hactive _ _ hne fun j _ hj => hfresh j hj)
    | none =>
      have hstranger := ViewerTable.findByClient_eq_none hclient
      exact .new hcleared hfresh hstranger
        (welcome_spec hconsistent c.budget hello.m hello.nowUs hne hello.random hfresh hstranger)

/-- Dropping a viewer that was just heard is dropping the viewer. -/
theorem Dropped.of_seen {s : ScreenHostSession} {budget : Option ViewerBudget} {i : SlotId}
    {nowUs : UInt64} {c : HostCall} (h : Dropped (s.seen i nowUs) budget i c) :
    Dropped s budget i c := by
  have hother : ∀ j, j ≠ i → (s.seen i nowUs).slot j = s.slot j := by
    intro j hji
    rw [slot_seen, if_neg hji]
  have hseats := seen_seats s i nowUs
  refine ⟨h.table, ?_, ?_, h.count, h.nextJoinOrder, h.budget, h.state, h.sessionId, ?_, ?_⟩
  · intro j hji hj
    rw [h.kept j hji (by rw [hother j hji]; exact hj), hother j hji]
  · intro j hj
    obtain ⟨hji, hactive⟩ := h.left j hj
    exact ⟨hji, (hseats.active j).symm.trans hactive⟩
  · have hcontrol := h.control
    rw [hseats.addrPacked i] at hcontrol
    exact hcontrol
  · have hevents := h.events
    rw [hseats.addrPacked i] at hevents
    exact hevents

theorem dropSilent_spec {s : ScreenHostSession} {budget : Option ViewerBudget} (nowUs : UInt64)
    (ids : List SlotId) {c : HostCall} (h : Drops s budget c) (htable : c.session.viewers.Consistent) :
    Drops s budget (dropSilent nowUs ids c) := by
  induction ids generalizing c with
  | nil => exact h
  | cons i rest ih =>
    unfold dropSilent
    dsimp only
    split
    · exact ih h htable
    · next hsilent =>
      have hactive : (c.session.slot i).active = true := by
        cases hi : (c.session.slot i).active with
        | true => rfl
        | false => simp [hi] at hsilent
      have hdropped := dropViewer_spec htable hactive c.budget
      exact ih (h.more hactive hdropped) hdropped.table

/-- A call that changes nothing but the feedback and the settings. -/
theorem Called.quiet {s s' : ScreenHostSession} {budget : Option ViewerBudget}
    {call : ScreenHostCall} (hmsg : s.messageOf call = none) (hhello : call.helloOf = none)
    (hsame : SameCore s s') (out : List ScreenHostEvent) (hout : ∀ e ∈ out, e.quiet = true) :
    Called s budget call { session := s', budget := budget, events := out } := by
  refine Called.left [] out ?_ hhello .none hsame nofun hout
  intro msg hsome
  rw [hmsg] at hsome
  cases hsome

theorem tick_spec {s : ScreenHostSession} (htable : s.viewers.Consistent)
    (budget : Option ViewerBudget) (nowUs : UInt64) :
    Called s budget (.tick nowUs) (s.tick budget nowUs) := by
  unfold tick
  split
  · exact .quiet rfl rfl (SameCore.refl s) [] nofun
  · have hdrops := dropSilent_spec nowUs (List.finRange _) (.none : Drops s budget _) htable
    generalize dropSilent nowUs (List.finRange _) { session := s, budget := budget } = c at hdrops
    obtain ⟨hviewers, hstate, hid, hcontrol, hout⟩ := reportFeedbackIfDue_spec c.session nowUs
    exact .left [] _ nofun rfl hdrops ⟨hviewers, hstate, hid, hcontrol⟩ nofun hout

theorem kickViewer_spec {s : ScreenHostSession} (htable : s.viewers.Consistent)
    (budget : Option ViewerBudget) (addrPacked : UInt64) :
    Called s budget (.kickViewer addrPacked) (s.kickViewer budget addrPacked).1 := by
  unfold kickViewer
  cases hfind : s.viewers.find addrPacked with
  | none => exact .quiet rfl rfl (SameCore.refl s) [] nofun
  | some i =>
    obtain ⟨-, hactive, -⟩ := ViewerTable.find_eq_some hfind
    have hdrops := (Drops.none : Drops s budget _).more hactive (dropViewer_spec htable hactive budget)
    have hbye : ∀ e ∈ ((buildEmpty kMaxDatagram .bye s.sessionId).map
        (ScreenHostEvent.sendTo addrPacked)).toList, e.quiet = true :=
      ScreenHostEvent.quiet_toList (fun _ => rfl) _
    have hcalled : Called s budget (.kickViewer addrPacked) _ :=
      .left _ [] nofun rfl hdrops (SameCore.refl _) hbye nofun
    rw [List.append_nil] at hcalled
    exact hcalled

theorem handlePacket_spec {s : ScreenHostSession} (htable : s.viewers.Consistent)
    (budget : Option ViewerBudget) (pkt : Bytes) (nowUs fromPacked : UInt64)
    (random : Option UInt32) :
    Called s budget (.handlePacket pkt nowUs fromPacked random)
      (s.handlePacket budget pkt nowUs fromPacked random).1 := by
  -- what is read of the call follows the branches of the handler
  have hmessage : ∀ o, s.messageOf (.handlePacket pkt nowUs fromPacked random) = o ↔
      (match parseCommonHeader pkt with
        | none => none
        | some h =>
            if h.type = .hello ∨ s.inSession h.sessionId = false then none
            else (s.viewers.find fromPacked).map fun i =>
              ViewerMessage.mk i h.type (payloadOf pkt) nowUs) = o := fun _ => Iff.rfl
  have hhello : ∀ o, ScreenHostCall.helloOf (.handlePacket pkt nowUs fromPacked random) = o ↔
      (match parseCommonHeader pkt with
        | none => none
        | some h =>
            if h.type = .hello ∧ fromPacked ≠ 0 then
              (parseHello (payloadOf pkt)).map fun m => HelloCall.mk m nowUs fromPacked random
            else none) = o := fun _ => Iff.rfl
  unfold handlePacket
  cases hheader : parseCommonHeader pkt with
  | none =>
    rw [hheader] at hmessage hhello
    exact .quiet ((hmessage _).mpr rfl) ((hhello _).mpr rfl) (SameCore.refl s) [] nofun
  | some h =>
    rw [hheader] at hmessage hhello
    dsimp only at hmessage hhello ⊢
    by_cases htype : h.type = .hello
    · rw [if_pos htype]
      rw [if_pos (Or.inl htype)] at hmessage
      cases hparse : parseHello (payloadOf pkt) with
      | none =>
        rw [hparse, Option.map_none, ite_self] at hhello
        unfold handleHello
        rw [hparse]
        exact .quiet ((hmessage _).mpr rfl) ((hhello _).mpr rfl) (SameCore.refl s) [] nofun
      | some m =>
        by_cases hzero : fromPacked = 0
        · rw [if_neg (fun hboth => hboth.2 hzero)] at hhello
          unfold handleHello
          rw [hparse]
          dsimp only
          rw [if_pos hzero]
          exact .quiet ((hmessage _).mpr rfl) ((hhello _).mpr rfl) (SameCore.refl s) [] nofun
        · rw [if_pos ⟨htype, hzero⟩, hparse, Option.map_some] at hhello
          exact .hello ((hmessage _).mpr rfl) ((hhello _).mpr rfl)
            (handleHello_spec htable budget (show parseHello _ =
              some (HelloCall.mk m nowUs fromPacked random).m from hparse) hzero)
    · rw [if_neg htype]
      rw [if_neg (fun hboth => htype hboth.1)] at hhello
      by_cases hsession : s.inSession h.sessionId = false
      · rw [if_pos (by simp [hsession])]
        rw [if_pos (Or.inr hsession)] at hmessage
        exact .quiet ((hmessage _).mpr rfl) ((hhello _).mpr rfl) (SameCore.refl s) [] nofun
      · rw [if_neg (by simp [hsession])]
        rw [if_neg (fun hor => hor.elim htype hsession)] at hmessage
        cases hfind : s.viewers.find fromPacked with
        | none =>
          rw [hfind, Option.map_none] at hmessage
          exact .quiet ((hmessage _).mpr rfl) ((hhello _).mpr rfl) (SameCore.refl s) [] nofun
        | some i =>
          rw [hfind, Option.map_some] at hmessage
          obtain ⟨-, hactive, -⟩ := ViewerTable.find_eq_some hfind
          dsimp only
          by_cases hbye : h.type = .bye
          · -- a viewer that leaves by itself
            rw [if_pos hbye]
            have hseen := dropViewer_spec (seen_consistent htable hactive nowUs)
              (((seen_seats s i nowUs).active i).trans hactive) budget
            have hmsg : ∀ msg, s.messageOf (.handlePacket pkt nowUs fromPacked random) = some msg →
                msg.type = .bye := by
              intro msg hsome
              cases (hmessage _).mp hsome
              exact hbye
            have hcalled := Called.left [] [] hmsg ((hhello _).mpr rfl)
              (Drops.none.more hactive hseen.of_seen) (SameCore.refl _) nofun nofun
            rw [List.append_nil, List.nil_append] at hcalled
            exact hcalled
          · rw [if_neg hbye]
            exact .message ((hmessage _).mpr rfl) ((hhello _).mpr rfl)
              (handleFromViewer_spec (s.seen i nowUs) h.type (payloadOf pkt) i nowUs)

/-- What a call does, when the table is consistent. -/
theorem call_spec {s : ScreenHostSession} (htable : s.viewers.Consistent)
    (budget : Option ViewerBudget) (call : ScreenHostCall) :
    Called s budget call (s.call budget call) := by
  cases call with
  | handlePacket pkt nowUs fromPacked random =>
    exact handlePacket_spec htable budget pkt nowUs fromPacked random
  | tick nowUs => exact tick_spec htable budget nowUs
  | kickViewer addrPacked => exact kickViewer_spec htable budget addrPacked
  | setOffer p =>
    have hsame : SameCore s (s.setOffer p) := ⟨rfl, rfl, rfl, rfl⟩
    exact Called.quiet rfl rfl hsame [] nofun
  | setClipboardEnabled on =>
    have hsame : SameCore s (s.setClipboardEnabled on) := ⟨rfl, rfl, rfl, rfl⟩
    exact Called.quiet rfl rfl hsame [] nofun

end ScreenHostSession

end Deskhub
