import Deskhub.Session.ScreenHostControl
import Deskhub.Session.ScreenLink

/-!
# Input across reconnects

A viewer that comes again says what it said last once more: its sender repeats the events it has
sent, and the slot it is given remembers none of them. `inputs_appliedOnce` says that this is the
only way for an event to be handed over twice.
-/

namespace Deskhub

namespace ScreenLink

/-! ## The host's side -/

theorem inputsOf_append (out out' : List ScreenHostEvent) : inputsOf (out ++ out') = inputsOf out ++ inputsOf out' := by
  unfold inputsOf
  exact List.filterMap_append

theorem inputsOf_quiet {out : List ScreenHostEvent} (h : ∀ e ∈ out, e.quiet = true) : inputsOf out = [] := by
  apply List.filterMap_eq_nil_iff.mpr
  intro e he
  have hquiet := h e he
  cases e with
  | input ev => contradiction
  | _ => rfl

theorem inputsOf_map_input (events : List InputEvent) : inputsOf (events.map ScreenHostEvent.input) = events := by
  induction events with
  | nil => rfl
  | cons ev events ih => exact congrArg (ev :: ·) ih

/-- The viewers of `s'` are new, or what they have read is what they had read in `s`. -/
def Rests (s s' : ScreenHostSession) : Prop :=
  ∀ j, (s'.slot j).active = true → (s'.slot j).input = {} ∨ ((s.slot j).active = true ∧
    (s'.slot j).clientId = (s.slot j).clientId ∧ (s'.slot j).input = (s.slot j).input)

theorem Rests.refl (s : ScreenHostSession) : Rests s s := fun _ hactive => .inr ⟨hactive, rfl, rfl⟩

theorem Rests.of_viewers {s s' : ScreenHostSession} (h : s'.viewers = s.viewers) : Rests s s' := by
  intro j hactive
  unfold ScreenHostSession.slot at hactive ⊢
  rw [h] at hactive ⊢
  exact .inr ⟨hactive, rfl, rfl⟩

theorem Rests.trans {s s' s'' : ScreenHostSession} (h : Rests s s') (h' : Rests s' s'') : Rests s s'' := by
  intro j hactive
  rcases h' j hactive with hnew | ⟨hactive', hclient', hinput'⟩
  · exact .inl hnew
  · rcases h j hactive' with hnew | ⟨hbefore, hclient, hinput⟩
    · exact .inl (hinput'.trans hnew)
    · exact .inr ⟨hbefore, hclient'.trans hclient, hinput'.trans hinput⟩

end ScreenLink

namespace ScreenHostSession

open ScreenLink

variable {s s' : ScreenHostSession} {b : Option ViewerBudget} {m : Hello} {nowUs fromPacked : UInt64} {c : HostCall}

theorem Dropped.rests {i : SlotId} (h : Dropped s b i c) : Rests s c.session ∧ inputsOf c.events = [] := by
  constructor
  · intro j hactive
    obtain ⟨hji, hbefore⟩ := h.left j hactive
    rw [h.kept j hji hbefore]
    exact .inr ⟨hbefore, rfl, rfl⟩
  · rw [h.events]
    split <;> split <;> rfl

theorem Drops.rests (h : Drops s b c) : Rests s c.session ∧ inputsOf c.events = [] := by
  induction h with
  | none => exact ⟨.refl s, rfl⟩
  | more _ _ hdropped ih =>
    refine ⟨ih.1.trans hdropped.rests.1, ?_⟩
    rw [inputsOf_append, ih.2, hdropped.rests.2]
    rfl

theorem Cleared.rests (h : Cleared s b m fromPacked c) : Rests s c.session ∧ inputsOf c.events = [] := by
  cases h with
  | kept _ => exact ⟨.refl s, rfl⟩
  | dropped _ _ _ hdropped => exact hdropped.rests

theorem WelcomedBack.rests {i : SlotId} {out : List ScreenHostEvent} (h : WelcomedBack s i m nowUs fromPacked s' out) :
    Rests s s' ∧ inputsOf out = [] := by
  refine ⟨?_, inputsOf_quiet h.events⟩
  intro j hactive
  right
  rw [h.slot_eq] at hactive ⊢
  by_cases hji : j = i
  · rw [if_pos hji] at hactive ⊢
    rw [hji]
    exact ⟨hactive, rfl, rfl⟩
  · rw [if_neg hji] at hactive ⊢
    exact ⟨hactive, rfl, rfl⟩

theorem Welcomed.rests {random : Option UInt32} (h : Welcomed s b m nowUs fromPacked random c) :
    Rests s c.session ∧ inputsOf c.events = [] := by
  cases h with
  | noSession _ _ => exact ⟨.of_viewers rfl, inputsOf_quiet (sendReject_quiet _)⟩
  | busy _ _ => exact ⟨.of_viewers rfl, inputsOf_quiet (sendReject_quiet _)⟩
  | admitted h =>
    constructor
    · intro j hactive
      rw [h.slot_eq] at hactive ⊢
      split at hactive
      · next hnew =>
        rw [if_pos hnew]
        exact .inl rfl
      · next hold =>
        rw [if_neg hold]
        exact .inr ⟨hactive, rfl, rfl⟩
    · apply List.filterMap_eq_nil_iff.mpr
      intro e he
      rcases h.events e he with hquiet | ⟨n, rfl⟩
      · cases e with
        | input ev => contradiction
        | _ => rfl
      · rfl

theorem HelloDone.rests {hello : HelloCall} (h : HelloDone s b hello c) : Rests s c.session ∧ inputsOf c.events = [] := by
  cases h with
  | back hcleared _ _ hback =>
    refine ⟨hcleared.rests.1.trans hback.rests.1, ?_⟩
    rw [inputsOf_append, hcleared.rests.2, hback.rests.2]
    rfl
  | new hcleared _ _ hnew =>
    refine ⟨hcleared.rests.1.trans hnew.rests.1, ?_⟩
    rw [inputsOf_append, hcleared.rests.2, hnew.rests.2]
    rfl

theorem input_seen (s : ScreenHostSession) (i j : SlotId) (nowUs : UInt64) :
    ((s.seen i nowUs).slot j).input = (s.slot j).input := by
  rw [slot_seen]
  by_cases hji : j = i
  · rw [if_pos hji, hji]
  · rw [if_neg hji]

theorem input_setSlot {i : SlotId} {slot : ViewerSlot} (h : s'.viewers = s.viewers.setSlot i slot) (j : SlotId) :
    (s'.slot j).input = if j = i then slot.input else (s.slot j).input := by
  unfold ScreenHostSession.slot
  rw [h, ViewerTable.setSlot_slots]
  by_cases hji : j = i
  · rw [if_pos hji, if_pos hji]
  · rw [if_neg hji, if_neg hji]

/-- A message that is not of input events leaves what was read. -/
theorem rests_of_setSlot {i : SlotId} {slot : ViewerSlot} (hseats : SameSeats s s')
    (h : s'.viewers = s.viewers.setSlot i slot) (hinput : slot.input = (s.slot i).input) : Rests s s' := by
  intro j hactive
  refine .inr ⟨(hseats.active j).symm.trans hactive, hseats.clientId j, ?_⟩
  rw [input_setSlot h]
  by_cases hji : j = i
  · rw [if_pos hji, hji]
    exact hinput
  · rw [if_neg hji]

/-- What a call does to what the viewers have read: one of them reads a message of events, or
none does. -/
inductive Reads (s : ScreenHostSession) (call : ScreenHostCall) (s' : ScreenHostSession)
    (out : List ScreenHostEvent) : Prop
  | message {msg : ViewerMessage} (hmsg : s.messageOf call = some msg) (htype : msg.type = .inputEvent)
      (hstreaming : s.state = .streaming) (hseats : SameSeats s s')
      (hinput : ∀ j, (s'.slot j).input =
        if j = msg.slot then ((s.slot msg.slot).input.handlePacket msg.payload).1 else (s.slot j).input)
      (hout : inputsOf out = if s.viewers.higherPriorityIsDriving msg.slot msg.nowUs then []
        else ((s.slot msg.slot).input.handlePacket msg.payload).2.2) : Reads s call s' out
  | rest (h : Rests s s') (hout : inputsOf out = []) : Reads s call s' out

theorem rests_of_seen {i : SlotId} (h : Rests (s.seen i nowUs) s') : Rests s s' := by
  have hseen : Rests s (s.seen i nowUs) := by
    intro j hactive
    have hseats := seen_seats s i nowUs
    exact .inr ⟨(hseats.active j).symm.trans hactive, hseats.clientId j, input_seen s i j nowUs⟩
  exact hseen.trans h

theorem FromViewer.reads {call : ScreenHostCall} {msg : ViewerMessage} {out : List ScreenHostEvent}
    (htable : s.viewers.Consistent) (hmsg : s.messageOf call = some msg)
    (h : FromViewer (s.seen msg.slot msg.nowUs) msg.slot msg.type msg.payload msg.nowUs s' out) :
    Reads s call s' out := by
  have hactive := messageOf_active hmsg
  have hseen := seen_seats s msg.slot msg.nowUs
  have hsame := (h.seats (seen_consistent htable hactive _) ((hseen.active _).trans hactive)).2
  have hseats := hseen.trans hsame
  cases h with
  | undisturbed _ h =>
    obtain ⟨after, hseat, hviewers⟩ := h.slot
    exact .rest (rests_of_seen (rests_of_setSlot hsame hviewers hseat.input)) (inputsOf_quiet h.events)
  | started _ hout => exact .rest (rests_of_seen (rests_of_setSlot hsame rfl rfl)) (inputsOf_quiet hout)
  | denied htype hstreaming hdriven =>
    rw [higherPriority_seen] at hdriven
    refine .message hmsg htype hstreaming hseats ?_ ?_
    · intro j
      rw [input_setSlot (s := s.seen msg.slot msg.nowUs) rfl j]
      dsimp only
      rw [input_seen, input_seen]
    · rw [if_pos hdriven]
      rfl
  | applied htype hstreaming hdriven =>
    rw [higherPriority_seen] at hdriven
    refine .message hmsg htype hstreaming hseats ?_ ?_
    · intro j
      rw [input_setSlot (s := s.seen msg.slot msg.nowUs) rfl j]
      dsimp only
      rw [input_seen, input_seen]
    · have hfree : ¬s.viewers.higherPriorityIsDriving msg.slot msg.nowUs = true := by
        rw [hdriven]
        decide
      have hcontrol : ∀ p : Prop, [Decidable p] → ∀ addrPacked,
          inputsOf (if p then [] else [ScreenHostEvent.controllerChange addrPacked]) = [] := by
        intro p _ addrPacked
        split <;> rfl
      rw [inputsOf_append, inputsOf_map_input, input_seen, hcontrol]
      exact (if_neg hfree).symm
  | released _ _ _ _ =>
    refine .rest (rests_of_seen (rests_of_setSlot hsame rfl rfl)) ?_
    rw [inputsOf_append]
    split <;> rfl

theorem call_reads (htable : s.viewers.Consistent) (b : Option ViewerBudget) (call : ScreenHostCall) :
    Reads s call (s.call b call).session (s.call b call).events := by
  have hcalled := call_spec htable b call
  generalize s.call b call = c at hcalled
  cases hcalled with
  | message hmsg _ h => exact h.reads htable hmsg
  | left before after _ _ h hsame hbefore hafter =>
    refine .rest (h.rests.1.trans (.of_viewers hsame.viewers)) ?_
    rw [inputsOf_append, inputsOf_append, inputsOf_quiet hbefore, h.rests.2, inputsOf_quiet hafter]
    rfl
  | hello _ _ h => exact .rest h.rests.1 h.rests.2

end ScreenHostSession

namespace ScreenLink

theorem messageOf_handlePacket {s : ScreenHostSession} {packet : Bytes} {nowUs fromPacked : UInt64}
    {random : Option UInt32} {msg : ViewerMessage}
    (h : s.messageOf (.handlePacket packet nowUs fromPacked random) = some msg) :
    msg.payload = payloadOf packet ∧ ∃ header, parseCommonHeader packet = some header ∧ header.type = msg.type := by
  unfold ScreenHostSession.messageOf at h
  dsimp only at h
  split at h
  · contradiction
  · next header hheader =>
    split at h
    · contradiction
    · obtain ⟨i, -, rfl⟩ := Option.map_eq_some_iff.mp h
      exact ⟨rfl, header, hheader, rfl⟩

/-! ## Numbers -/

/-- What is taken from a datagram are events that were queued, under the numbers they have. -/
theorem numbered_taken {queued : List InputEvent} {packet : Bytes} (h : ShowsWindow queued packet) (next : Nat) :
    ((numbered packet (Windows.taken firstEvent endEvent queued next packet)).map Prod.snd).Pairwise (· < ·) ∧
      ∀ p ∈ numbered packet (Windows.taken firstEvent endEvent queued next packet),
        queued[p.2]? = some p.1 ∧ max next (firstEvent packet) ≤ p.2 ∧ p.2 < endEvent packet := by
  obtain ⟨firstSeq, events, hparse, -, hle, -⟩ := h
  have hend : endEvent packet ≤ queued.length := by
    unfold endEvent
    rw [hparse]
    exact hle
  have hlength : ((queued.take (endEvent packet)).drop (max next (firstEvent packet))).length =
      endEvent packet - max next (firstEvent packet) := by
    rw [List.length_drop, List.length_take, Nat.min_eq_left hend]
  unfold numbered
  rw [Windows.taken_eq, hlength]
  constructor
  · rw [List.zipIdx_map_snd]
    exact List.pairwise_lt_range'
  · rintro ⟨ev, n⟩ hp
    obtain ⟨hfrom, hto, hev⟩ := List.mem_zipIdx hp
    rw [hlength] at hto
    dsimp only
    have hplace : max next (firstEvent packet) + (n - (endEvent packet - (endEvent packet -
        max next (firstEvent packet)))) = n := by omega
    refine ⟨?_, by omega, by omega⟩
    rw [hev, List.getElem_drop, List.getElem_take]
    simp only [hplace]
    exact List.getElem?_eq_getElem (by omega)

/-! ## The condition -/

/-- The event that a call queues. -/
def queuedIn (w : ScreenLink) : ScreenLinkCall → List InputEvent
  | .client call => queuedBy w.client call
  | _ => []

/-- The place behind all events that may have been handed over when a call brings the first datagram
of events that a slot of the client reads: its first event, or its end when another viewer drives
and its events are not handed over. -/
def readsFrom (clientId : UInt32) (w : ScreenLink) : ScreenLinkCall → Option Nat
  | .deliver n nowUs fromPacked random => do
      let packet ← w.sent[n]?
      let msg ← w.host.session.messageOf (.handlePacket packet nowUs fromPacked random)
      let slot := w.host.session.slot msg.slot
      if msg.type = .inputEvent ∧ w.host.session.state = .streaming ∧ slot.clientId = clientId ∧
          slot.input.lastAppliedSeq = -1 then
        some (if w.host.session.viewers.higherPriorityIsDriving msg.slot msg.nowUs then endEvent packet
          else firstEvent packet)
      else none
  | _ => none

/-- The numbers of the events do not wrap, and a slot that has read nothing reads on behind the
events that were handed over. -/
def ReadsOn (clientId : UInt32) (w : ScreenLink) (out : List (InputEvent × Nat)) (call : ScreenLinkCall) : Prop :=
  (w.queued ++ w.queuedIn call).length < 2 ^ 32 ∧ ∀ place ∈ w.readsFrom clientId call, ∀ p ∈ out, p.2 < place

instance (clientId : UInt32) (w : ScreenLink) (out : List (InputEvent × Nat)) (call : ScreenLinkCall) :
    Decidable (ReadsOn clientId w out call) :=
  inferInstanceAs (Decidable (_ ∧ _))

/-! ## The invariant -/

/-- The slots of the client have read as far as the events that were handed over. -/
def Behind (clientId : UInt32) (s : ScreenHostSession) (out : List (InputEvent × Nat)) : Prop :=
  ∀ i, (s.slot i).active = true → (s.slot i).clientId = clientId →
    ∃ next : Nat, (s.slot i).input.lastAppliedSeq + 1 = next ∧ (next = 0 ∨ ∀ p ∈ out, p.2 < next)

theorem Behind.rests {clientId : UInt32} {s s' : ScreenHostSession} {out : List (InputEvent × Nat)}
    (h : Behind clientId s out) (hrests : Rests s s') : Behind clientId s' out := by
  intro i hactive hclient
  rcases hrests i hactive with hnew | ⟨hbefore, hsame, hinput⟩
  · refine ⟨0, ?_, .inl rfl⟩
    rw [hnew]
    rfl
  · rw [hinput]
    exact h i hbefore (hsame.symm.trans hclient)

/-- What holds of both parties and of what was handed over. -/
structure Orderly (clientId : UInt32) (w : ScreenLink) (out : List (InputEvent × Nat)) : Prop where
  fair : w.host.Fair
  few : w.queued.length < 2 ^ 32
  sender : ∃ calls : List InputSender.Call, w.client.input = (InputSender.machine.run {} calls).1 ∧
    InputSender.queued calls = w.queued ∧ ∀ packet ∈ w.sent, IsInput packet → packet ∈ InputSender.sent calls
  events : ∀ p ∈ out, w.queued[p.2]? = some p.1
  increasing : (out.map Prod.snd).Pairwise (· < ·)
  behind : Behind clientId w.host.session out

theorem orderly_init (clientId : UInt32) (shared : Bool) : Orderly clientId (init shared) [] := by
  refine ⟨ViewerHost.fair_init shared, Nat.two_pow_pos 32, ⟨[], rfl, rfl, ?_⟩, ?_, List.Pairwise.nil, ?_⟩
  · intro packet hpacket
    contradiction
  · intro p hp
    contradiction
  · intro i hactive
    contradiction

/-- The viewer's datagrams of events show windows of what it queued. -/
theorem Orderly.showsWindow {clientId : UInt32} {w : ScreenLink} {out : List (InputEvent × Nat)}
    (h : Orderly clientId w out) {packet : Bytes} (hpacket : packet ∈ w.sent) (hinput : IsInput packet) :
    ShowsWindow w.queued packet := by
  obtain ⟨calls, -, hqueued, hsent⟩ := h.sender
  have hkeeps := InputSender.keeps_run calls (by rw [hqueued]; exact h.few)
  rw [hqueued] at hkeeps
  exact hkeeps.windows packet (hsent packet hpacket hinput)

/-- A call of the viewer's side. -/
theorem Orderly.drives {clientId : UInt32} {w : ScreenLink} {out : List (InputEvent × Nat)}
    (h : Orderly clientId w out) {client : ScreenClientSession} {events : List InputEvent}
    {sent : List ScreenClientEvent} (hdrives : Drives w.client client sent events)
    (hfew : (w.queued ++ events).length < 2 ^ 32) :
    Orderly clientId { w with client := client, queued := w.queued ++ events, sent := w.sent ++ packetsOf sent } out := by
  obtain ⟨calls, hinput, hqueued, hsent⟩ := h.sender
  obtain ⟨calls', hinput', hqueued', hsent'⟩ := hdrives
  have hrun := InputSender.machine.run_append {} calls calls'
  rw [← hinput] at hrun
  refine ⟨h.fair, hfew, ⟨calls ++ calls', ?_, ?_, ?_⟩, ?_, h.increasing, h.behind⟩
  · rw [hrun]
    exact hinput'
  · unfold InputSender.queued
    rw [List.filterMap_append]
    exact congrArg₂ (· ++ ·) hqueued hqueued'
  · intro packet hpacket hmessage
    unfold InputSender.sent
    rw [hrun]
    rcases List.mem_append.mp hpacket with hold | hnew
    · exact List.mem_append_left _ (hsent packet hold hmessage)
    · exact List.mem_append_right _ (hsent' packet hnew hmessage)
  · intro p hp
    have hev := h.events p hp
    obtain ⟨hlt, -⟩ := List.getElem?_eq_some_iff.mp hev
    dsimp only
    rw [List.getElem?_append_left hlt]
    exact hev

theorem Orderly.clientStep {clientId : UInt32} {w : ScreenLink} {out : List (InputEvent × Nat)}
    (h : Orderly clientId w out) {call : ScreenClientCall}
    (hfew : (w.queued ++ queuedBy w.client call).length < 2 ^ 32) : Orderly clientId (w.clientStep call) out :=
  h.drives (step_drives w.client call) hfew

/-- A step of the host that brings no message of the client. -/
theorem Orderly.hostStep {clientId : UInt32} {w : ScreenLink} {out : List (InputEvent × Nat)}
    (h : Orderly clientId w out) {e : ViewerHostEvent} (howner : w.ownerOf e ≠ some clientId) :
    Orderly clientId (w.hostStep e).1 out := by
  refine ⟨h.fair.step e, h.few, h.sender, h.events, h.increasing, ?_⟩
  cases e with
  | call call =>
    have hreads := ScreenHostSession.call_reads h.fair.table w.host.budget call
    show Behind clientId (w.host.session.call w.host.budget call).session out
    generalize w.host.session.call w.host.budget call = c at hreads
    cases hreads with
    | rest hrests _ => exact h.behind.rests hrests
    | @message msg hmsg _ _ hseats hinput _ =>
      -- the slot that reads is another client's
      intro i hactive hclient
      rw [hseats.active] at hactive
      rw [hseats.clientId] at hclient
      have hother : i ≠ msg.slot := by
        rintro rfl
        apply howner
        show (w.host.session.messageOf call).map (fun msg => (w.host.session.slot msg.slot).clientId) = some clientId
        rw [hmsg]
        exact congrArg some hclient
      rw [hinput, if_neg hother]
      exact h.behind i hactive hclient
  | takeElsewhere =>
    have hsame : (w.host.takeElsewhere).session = w.host.session := by
      unfold ViewerHost.takeElsewhere
      split <;> rfl
    show Behind clientId (w.host.takeElsewhere).session out
    rw [hsame]
    exact h.behind
  | giveElsewhere =>
    have hsame : (w.host.giveElsewhere).session = w.host.session := by
      unfold ViewerHost.giveElsewhere
      split <;> rfl
    show Behind clientId (w.host.giveElsewhere).session out
    rw [hsame]
    exact h.behind

theorem firstEvent_lt_endEvent {queued : List InputEvent} {packet : Bytes} (h : ShowsWindow queued packet) :
    firstEvent packet < endEvent packet := by
  obtain ⟨firstSeq, events, hparse, hne, -, -⟩ := h
  have hsome := List.length_pos_iff.mpr hne
  unfold firstEvent endEvent
  rw [hparse]
  dsimp only
  omega

/-- The next step of the host, and what it hands over. -/
theorem Orderly.handed {clientId : UInt32} {w : ScreenLink} {out given : List (InputEvent × Nat)}
    (h : Orderly clientId w out) {host : ViewerHost} {answered : List Bytes} (hfair : host.Fair)
    (hevents : ∀ p ∈ given, w.queued[p.2]? = some p.1) (hgiven : (given.map Prod.snd).Pairwise (· < ·))
    (hafter : ∀ p ∈ out, ∀ q ∈ given, p.2 < q.2) (hbehind : Behind clientId host.session (out ++ given)) :
    Orderly clientId { w with host := host, answered := answered } (out ++ given) := by
  refine ⟨hfair, h.few, h.sender, ?_, ?_, hbehind⟩
  · intro p hp
    rcases List.mem_append.mp hp with hold | hnew
    · exact h.events p hold
    · exact hevents p hnew
  · rw [List.map_append, List.pairwise_append]
    refine ⟨h.increasing, hgiven, ?_⟩
    intro a ha b hb
    obtain ⟨p, hp, rfl⟩ := List.mem_map.mp ha
    obtain ⟨q, hq, rfl⟩ := List.mem_map.mp hb
    exact hafter p hp q hq

/-- What a slot takes from a datagram lies behind all that was handed over before. -/
theorem taken_behind {queued : List InputEvent} {out : List (InputEvent × Nat)} {packet : Bytes}
    (h : ShowsWindow queued packet) {next : Nat} (hnext : next = 0 ∨ ∀ p ∈ out, p.2 < next) {driving : Bool}
    (hplace : next = 0 → ∀ p ∈ out, p.2 < if driving then endEvent packet else firstEvent packet)
    {inputs : List InputEvent}
    (hinputs : inputs = if driving then [] else Windows.taken firstEvent endEvent queued next packet) :
    (∀ p ∈ numbered packet inputs, queued[p.2]? = some p.1) ∧
      ((numbered packet inputs).map Prod.snd).Pairwise (· < ·) ∧
      (∀ p ∈ out, ∀ q ∈ numbered packet inputs, p.2 < q.2) ∧
      ∀ p ∈ out ++ numbered packet inputs, p.2 < max next (endEvent packet) := by
  have hwindow := firstEvent_lt_endEvent h
  obtain ⟨hincreasing, hplaces⟩ := numbered_taken h next
  cases driving with
  | true =>
    rw [hinputs]
    refine ⟨nofun, List.Pairwise.nil, fun _ _ => nofun, ?_⟩
    intro p hp
    have hold : p ∈ out := by simpa [numbered] using hp
    rcases hnext with hzero | hbefore
    · exact (hplace hzero p hold).trans_le (Nat.le_max_right _ _)
    · exact (hbefore p hold).trans_le (Nat.le_max_left _ _)
  | false =>
    have hbehind : ∀ p ∈ out, p.2 < max next (firstEvent packet) := by
      intro p hp
      rcases hnext with hzero | hbefore
      · exact (hplace hzero p hp).trans_le (Nat.le_max_right _ _)
      · exact (hbefore p hp).trans_le (Nat.le_max_left _ _)
    have htaken : inputs = Windows.taken firstEvent endEvent queued next packet := hinputs
    rw [htaken]
    refine ⟨fun p hp => (hplaces p hp).1, hincreasing, ?_, ?_⟩
    · intro p hp q hq
      exact (hbehind p hp).trans_le (hplaces q hq).2.1
    · intro p hp
      rcases List.mem_append.mp hp with hold | hnew
      · have hlt := hbehind p hold
        omega
      · have hlt := (hplaces p hnew).2.2
        omega

/-- A datagram of the client arrives. -/
theorem Orderly.deliverStep {clientId : UInt32} {w : ScreenLink} {out : List (InputEvent × Nat)}
    (h : Orderly clientId w out) {n : Nat} {nowUs fromPacked : UInt64} {random : Option UInt32} {packet : Bytes}
    (hpacket : w.sent[n]? = some packet)
    (hreads : ∀ place ∈ w.readsFrom clientId (.deliver n nowUs fromPacked random), ∀ p ∈ out, p.2 < place) :
    Orderly clientId (w.deliverStep clientId packet nowUs fromPacked random).1
      (out ++ (w.deliverStep clientId packet nowUs fromPacked random).2) := by
  unfold ScreenLink.deliverStep
  dsimp only
  split
  · rw [List.append_nil]
    exact h
  next hmine =>
  have hcalled := ScreenHostSession.call_reads h.fair.table w.host.budget (.handlePacket packet nowUs fromPacked random)
  have hfair := h.fair.step (.call (.handlePacket packet nowUs fromPacked random))
  cases hcalled with
  | rest hrests hout =>
    have hnone : numbered packet (inputsOf (w.hostStep (.call (.handlePacket packet nowUs fromPacked random))).2) = [] := by
      show numbered packet (inputsOf (w.host.session.call w.host.budget _).events) = []
      rw [hout]
      rfl
    rw [hnone, List.append_nil]
    exact ⟨hfair, h.few, h.sender, h.events, h.increasing, h.behind.rests hrests⟩
  | @message msg hmsg htype hstreaming hseats hinput hout =>
    obtain ⟨hpayload, header, hheader, hsame⟩ := messageOf_handlePacket hmsg
    have hshows := h.showsWindow (List.mem_of_getElem? hpacket) ⟨header, hheader, hsame.trans htype⟩
    have hactive := ScreenHostSession.messageOf_active hmsg
    -- no other client has a slot at this address
    have hclient : (w.host.session.slot msg.slot).clientId = clientId := by
      by_contra hother
      apply hmine
      refine ⟨_, ?_, hother⟩
      show _ ∈ (w.host.session.messageOf _).map _
      rw [hmsg]
      rfl
    obtain ⟨next, hnext, hbefore⟩ := h.behind msg.slot hactive hclient
    obtain ⟨hlast, htaken⟩ := InputReceiver.handlePacket_window hnext hshows
    rw [hpayload, htaken] at hout
    have hplace : next = 0 → ∀ p ∈ out, p.2 < if w.host.session.viewers.higherPriorityIsDriving msg.slot msg.nowUs
        then endEvent packet else firstEvent packet := by
      intro hzero
      have hfresh : (w.host.session.slot msg.slot).input.lastAppliedSeq = -1 := by omega
      apply hreads
      unfold readsFrom
      dsimp only
      rw [hpacket, Option.mem_def, Option.bind_eq_bind, Option.bind_some, Option.bind_eq_bind, hmsg, Option.bind_some]
      exact if_pos ⟨htype, hstreaming, hclient, hfresh⟩
    obtain ⟨hevents, hincreasing, hafter, hend⟩ := taken_behind hshows hbefore hplace hout
    refine h.handed hfair hevents hincreasing hafter ?_
    intro i hi hmineToo
    have hi' : (w.host.session.slot i).active = true := (hseats.active i).symm.trans hi
    have hslot : i = msg.slot := by
      apply h.fair.table.client_inj i msg.slot hi' hactive
      exact ((hseats.clientId i).symm.trans hmineToo).trans hclient.symm
    refine ⟨max next (endEvent packet), ?_, .inr hend⟩
    show ((w.host.session.call w.host.budget _).session.slot i).input.lastAppliedSeq + 1 = _
    rw [hinput, if_pos hslot, hpayload]
    exact hlast

/-- The invariant is kept. -/
theorem Orderly.step {clientId : UInt32} {w : ScreenLink} {out : List (InputEvent × Nat)} (h : Orderly clientId w out)
    {call : ScreenLinkCall} (hreads : ReadsOn clientId w out call) :
    Orderly clientId ((screenLink clientId).step w call).1 (out ++ ((screenLink clientId).step w call).2) := by
  have hquiet : ∀ {w' : ScreenLink}, Orderly clientId w' out → Orderly clientId w' (out ++ []) := by
    intro w' h'
    rw [List.append_nil]
    exact h'
  cases call with
  | start hello nowUs =>
    apply hquiet
    have hstart : Drives w.client (w.client.start { hello with clientId := clientId } nowUs).1
        (w.client.start { hello with clientId := clientId } nowUs).2 [] := drives_of_mute rfl (mute_sendHello _)
    have hdriven := h.drives hstart (by rw [List.append_nil]; exact h.few)
    rw [List.append_nil] at hdriven
    exact hdriven
  | client call =>
    have hclient : Orderly clientId (w.clientStep call) out := h.clientStep hreads.1
    cases call with
    | handlePacket _ _ => exact hquiet h
    | _ => exact hquiet hclient
  | answer n nowUs =>
    cases hpacket : w.answered[n]? with
    | none =>
      have hsame : (screenLink clientId).step w (.answer n nowUs) = (w, []) := by
        simp only [screenLink, hpacket]
      rw [hsame]
      exact hquiet h
    | some packet =>
      have hstep : (screenLink clientId).step w (.answer n nowUs) = (w.clientStep (.handlePacket packet nowUs), []) := by
        simp only [screenLink, hpacket]
      have hfew : (w.queued ++ queuedBy w.client (.handlePacket packet nowUs)).length < 2 ^ 32 := by
        show (w.queued ++ []).length < 2 ^ 32
        rw [List.append_nil]
        exact h.few
      rw [hstep]
      exact hquiet (h.clientStep hfew)
  | deliver n nowUs fromPacked random =>
    cases hpacket : w.sent[n]? with
    | none =>
      have hsame : (screenLink clientId).step w (.deliver n nowUs fromPacked random) = (w, []) := by
        simp only [screenLink, hpacket]
      rw [hsame]
      exact hquiet h
    | some packet =>
      have hstep : (screenLink clientId).step w (.deliver n nowUs fromPacked random) =
          w.deliverStep clientId packet nowUs fromPacked random := by
        simp only [screenLink, hpacket]
      rw [hstep]
      exact h.deliverStep hpacket hreads.2
  | host e =>
    by_cases howner : w.ownerOf e = some clientId
    · have hsame : (screenLink clientId).step w (.host e) = (w, []) := if_pos howner
      rw [hsame]
      exact hquiet h
    · have hstep : (screenLink clientId).step w (.host e) = ((w.hostStep e).1, []) := if_neg howner
      rw [hstep]
      exact hquiet (h.hostStep howner)

/-- What is handed over comes in the order in which it was queued, each event at most once, as long
as a slot that has read nothing reads on behind what was handed over. -/
theorem inputs_appliedOnce (clientId : UInt32) (shared : Bool) (calls : List ScreenLinkCall)
    (h : (screenLink clientId).Along (ReadsOn clientId) (init shared) calls) :
    let r := (screenLink clientId).run (init shared) calls
    (r.2.map Prod.snd).Nodup ∧ ∀ p ∈ r.2, r.1.queued[p.2]? = some p.1 := by
  have horderly := (screenLink clientId).run_invariant (Orderly clientId) (ReadsOn clientId)
    (orderly_init clientId shared) (fun _ _ _ hreads horderly => horderly.step hreads) calls h
  exact ⟨horderly.increasing.imp Nat.ne_of_lt, horderly.events⟩

/-- The viewer says hello, is let in and streams. -/
def joined (hello answer : Nat) (nowUs : UInt64) (random : UInt32) : List ScreenLinkCall :=
  [.start { clientId := 7, maxWidth := 1920, maxHeight := 1080, features := 0 } nowUs,
    .deliver hello nowUs 9 (some random), .answer answer nowUs, .deliver (hello + 1) nowUs 9 none,
    .client (.notifyVideoPacket nowUs)]

/-- It queues an event, which goes out. -/
def typed (ev : InputEvent) (nowUs : UInt64) : List ScreenLinkCall := [.client (.queueInput ev), .client (.tick nowUs)]

/-- Both sides hear nothing of each other for too long. -/
def broken (nowUs : UInt64) : List ScreenLinkCall := [.host (.call (.tick nowUs)), .client (.tick nowUs)]

/-- The datagram of the first event is lost with the link; the one after the reconnect brings both
events. -/
theorem inputs_appliedOnce_lost :
    let r := (screenLink 7).run (init false)
      (joined 0 0 1 5 ++ typed { a := 1 } 2 ++ broken 5000010 ++ joined 3 1 5000020 6 ++ typed { a := 2 } 5000021 ++
        [.deliver 6 5000022 9 none])
    (r.2.map Prod.snd).Nodup ∧ ∀ p ∈ r.2, r.1.queued[p.2]? = some p.1 :=
  inputs_appliedOnce 7 false _ (by decide +kernel)

/-- The datagram of the first event arrives before the link breaks; the one after the reconnect
brings the event again, to a slot that knows nothing of it. -/
theorem inputs_appliedTwice :
    ¬ ∀ (clientId : UInt32) (shared : Bool) (calls : List ScreenLinkCall),
      (((screenLink clientId).run (init shared) calls).2.map Prod.snd).Nodup := by
  intro h
  have honce := h 7 false (joined 0 0 1 5 ++ typed { a := 1 } 2 ++ [.deliver 2 3 9 none] ++ broken 5000010 ++
    joined 3 1 5000020 6 ++ typed { a := 2 } 5000021 ++ [.deliver 6 5000022 9 none])
  revert honce
  decide +kernel

end ScreenLink

end Deskhub
