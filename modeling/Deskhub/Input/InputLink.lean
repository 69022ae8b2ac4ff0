import Deskhub.Lib.Machine
import Deskhub.Lib.Windows
import Deskhub.Input.InputReceiver
import Deskhub.Input.InputSender

/-!
# Input events over a lossy link

Every datagram of an `InputSender` is a window of the events queued so far; the
receiver reads these windows. What it applies follows from the rules for windows.
-/

namespace Deskhub

namespace InputSender

/-- The calls an input sender gets. -/
inductive Call where
  | queue (ev : InputEvent)
  | flush (nowUs : UInt64) (canSend : Bool)
  | setSessionId (id : UInt32)
deriving DecidableEq, Repr

/-- The sender as a machine; its outputs are the datagrams it sends. -/
def machine : Machine InputSender Call Bytes where
  step
    | s, .queue ev => (s.queue ev, [])
    | s, .flush nowUs canSend => s.flush nowUs canSend
    | s, .setSessionId id => (s.setSessionId id, [])

/-- The events queued in a run, in order. -/
def queued (calls : List Call) : List InputEvent :=
  calls.filterMap fun
    | .queue ev => some ev
    | _ => none

/-- The datagrams a fresh sender sends in a run, in order. -/
def sent (calls : List Call) : List Bytes := (machine.run {} calls).2

end InputSender

/-! ## The window of a datagram -/

/-- The number of the first event of a datagram. -/
def firstEvent (d : Bytes) : Nat :=
  match parseInputEvents (payloadOf d) kMaxInputEvents with
  | none => 0
  | some (firstSeq, _) => firstSeq.toNat

/-- The number behind the last event of a datagram. -/
def endEvent (d : Bytes) : Nat :=
  match parseInputEvents (payloadOf d) kMaxInputEvents with
  | none => 0
  | some (firstSeq, events) => firstSeq.toNat + events.length

/-- The numbers of the events in the datagrams of a list. -/
def eventsIn (ds : List Bytes) : Finset Nat := Windows.shownBy firstEvent endEvent ds

/-- A datagram shows a nonempty window of the events of `queued`. -/
def ShowsWindow (queued : List InputEvent) (d : Bytes) : Prop :=
  ∃ firstSeq events, parseInputEvents (payloadOf d) kMaxInputEvents = some (firstSeq, events) ∧
    events ≠ [] ∧ firstSeq.toNat + events.length ≤ queued.length ∧
    events = (queued.take (firstSeq.toNat + events.length)).drop firstSeq.toNat

theorem ShowsWindow.append {queued : List InputEvent} {d : Bytes} (h : ShowsWindow queued d)
    (more : List InputEvent) : ShowsWindow (queued ++ more) d := by
  rcases h with ⟨firstSeq, events, hparse, hne, hle, hevents⟩
  refine ⟨firstSeq, events, hparse, hne, ?_, ?_⟩
  · rw [List.length_append]
    omega
  · rwa [List.take_append_of_le_length hle]

/-- A receiver reads a datagram's window. -/
theorem InputReceiver.handlePacket_window {r : InputReceiver} {next : Nat}
    (hnext : r.lastAppliedSeq + 1 = next) {queued : List InputEvent} {d : Bytes}
    (h : ShowsWindow queued d) :
    (r.handlePacket (payloadOf d)).1.lastAppliedSeq + 1 = ((max next (endEvent d) : Nat) : Int) ∧
      (r.handlePacket (payloadOf d)).2.2 = Windows.taken firstEvent endEvent queued next d := by
  rcases h with ⟨firstSeq, events, hparse, hne, -, hevents⟩
  have hfirst : firstEvent d = firstSeq.toNat := by
    unfold firstEvent
    rw [hparse]
  have hend : endEvent d = firstSeq.toNat + events.length := by
    unfold endEvent
    rw [hparse]
  have hloop := applyFrom_spec (r := { r with stats := { r.stats with
    packets := r.stats.packets + 1 } }) hnext firstSeq.toNat hne
  unfold handlePacket
  rw [hparse, hend]
  refine ⟨hloop.1, ?_⟩
  rw [hloop.2]
  unfold Windows.taken
  rw [hfirst, hend, ← hevents]

/-- A receiver reads the windows of the datagrams it gets. -/
theorem InputReceiver.applyAll_windows {r : InputReceiver} (next : Nat)
    (hnext : r.lastAppliedSeq + 1 = next) {queued : List InputEvent} {ds : List Bytes}
    (h : ∀ d ∈ ds, ShowsWindow queued d) :
    (r.applyAll ds).2 = (Windows.read firstEvent endEvent queued next ds).2 := by
  induction ds generalizing r next with
  | nil => rfl
  | cons d ds ih =>
    rcases handlePacket_window hnext (h d List.mem_cons_self) with ⟨hlast, happlied⟩
    have hrest := ih _ hlast fun e he => h e (List.mem_cons_of_mem d he)
    rw [applyAll, Windows.read]
    dsimp only
    rw [hrest, happlied]

/-! ## What the sender keeps -/

namespace InputSender

/-- What holds of a sender after `queued` was queued and `ds` was sent: the history is
the end of what was queued, with enough sent events in front of the unsent ones. -/
structure Keeps (s : InputSender) (queued : List InputEvent) (ds : List Bytes) : Prop where
  history : s.history = queued.drop s.firstSeq.toNat
  firstSeq_le : s.firstSeq.toNat ≤ queued.length
  nextSeq : s.nextSeq.toNat = queued.length
  unsent_le : s.unsent ≤ s.history.length
  lead : s.firstSeq.toNat = 0 ∨ kInputRedundancy ≤ s.history.length - s.unsent
  windows : ∀ d ∈ ds, ShowsWindow queued d
  chained : Windows.Chained firstEvent endEvent kInputRedundancy ds (queued.length - s.unsent)

theorem Keeps.length_history {s : InputSender} {queued : List InputEvent} {ds : List Bytes}
    (h : s.Keeps queued ds) : s.firstSeq.toNat + s.history.length = queued.length := by
  have hle := h.firstSeq_le
  rw [h.history, List.length_drop]
  omega

/-- Trimming drops events from the front, and only while enough sent ones stay. -/
theorem trimHistory_spec (unsent : Nat) (firstSeq : UInt32) (history : List InputEvent)
    (hfit : firstSeq.toNat + history.length < 2 ^ 32) :
    ∃ k ≤ history.length,
      (trimHistory unsent firstSeq history).1.toNat = firstSeq.toNat + k ∧
      (trimHistory unsent firstSeq history).2 = history.drop k ∧
      (k = 0 ∨ kInputRedundancy ≤ history.length - k - unsent) := by
  induction history generalizing firstSeq with
  | nil => exact ⟨0, Nat.le_refl 0, rfl, rfl, .inl rfl⟩
  | cons ev history ih =>
    rw [List.length_cons] at hfit
    rw [trimHistory]
    split
    · next hmany =>
      have hsucc : (firstSeq + 1).toNat = firstSeq.toNat + 1 := by
        rw [UInt32.toNat_add]
        exact Nat.mod_eq_of_lt (by simp; omega)
      rcases ih (firstSeq + 1) (by omega) with ⟨k, hle, hseq, hrest, hlead⟩
      refine ⟨k + 1, ?_, ?_, ?_, ?_⟩
      · rw [List.length_cons]
        omega
      · omega
      · rw [hrest, List.drop_succ_cons]
      · rw [List.length_cons]
        omega
    · exact ⟨0, Nat.zero_le _, rfl, rfl, .inl rfl⟩

theorem Keeps.queue {s : InputSender} {queued : List InputEvent} {ds : List Bytes}
    (h : s.Keeps queued ds) (ev : InputEvent) (hfew : queued.length + 1 < 2 ^ 32) :
    (s.queue ev).Keeps (queued ++ [ev]) ds := by
  have hlen := h.length_history
  have hunsent := h.unsent_le
  -- an empty history starts anew where the numbers stand
  have hfirst : (if s.history = [] then s.nextSeq else s.firstSeq) = s.firstSeq := by
    split
    · next hempty =>
      rw [hempty, List.length_nil] at hlen
      apply UInt32.toNat_inj.mp
      rw [h.nextSeq]
      omega
    · rfl
  rcases trimHistory_spec (s.unsent + 1) s.firstSeq (s.history ++ [ev])
    (by rw [List.length_append, List.length_singleton]; omega) with ⟨k, hle, hseq, hrest, hlead⟩
  rw [List.length_append, List.length_singleton] at hle hlead
  have hqueue : s.queue ev = { s with
      history := (s.history ++ [ev]).drop k
      nextSeq := s.nextSeq + 1
      firstSeq := (trimHistory (s.unsent + 1) s.firstSeq (s.history ++ [ev])).1
      unsent := s.unsent + 1 } := by
    unfold InputSender.queue
    rw [hfirst]
    dsimp only
    rw [hrest]
  have hkeptLen : ((s.history ++ [ev]).drop k).length = s.history.length + 1 - k := by
    rw [List.length_drop, List.length_append, List.length_singleton]
  rw [hqueue]
  constructor
  · show (s.history ++ [ev]).drop k = _
    rw [hseq, ← List.drop_drop, List.drop_append_of_le_length h.firstSeq_le, ← h.history]
  · show (trimHistory _ _ _).1.toNat ≤ _
    rw [hseq, List.length_append, List.length_singleton]
    omega
  · show (s.nextSeq + 1).toNat = _
    have hnext := h.nextSeq
    rw [UInt32.toNat_add, List.length_append, List.length_singleton, hnext]
    exact Nat.mod_eq_of_lt (by simp; omega)
  · show s.unsent + 1 ≤ ((s.history ++ [ev]).drop k).length
    rw [hkeptLen]
    rcases hlead with hzero | hlead
    · omega
    · unfold kInputRedundancy at hlead
      omega
  · show (trimHistory _ _ _).1.toNat = 0 ∨ _ ≤ ((s.history ++ [ev]).drop k).length - (s.unsent + 1)
    rw [hseq, hkeptLen]
    rcases hlead with hzero | hlead
    · rcases h.lead with hstart | hkept
      · exact .inl (by omega)
      · exact .inr (by omega)
    · exact .inr hlead
  · intro d hd
    exact (h.windows d hd).append [ev]
  · have hchain := h.chained
    rw [List.length_append, List.length_singleton]
    show Windows.Chained _ _ _ ds (queued.length + 1 - (s.unsent + 1))
    rwa [Nat.add_sub_add_right]

/-- A range of the history goes out as the window it is of the events queued. -/
theorem Keeps.sendRange {s : InputSender} {queued : List InputEvent} {ds : List Bytes}
    (h : s.Keeps queued ds) (hfew : queued.length < 2 ^ 32) (start stop : Nat) (hlt : start < stop)
    (hstop : stop ≤ s.history.length) (hroom : stop - start ≤ kMaxInputEvents) :
    ∃ d, s.sendRange start stop = some d ∧ ShowsWindow queued d ∧
      firstEvent d = s.firstSeq.toNat + start ∧ endEvent d = s.firstSeq.toNat + stop := by
  have hlen := h.length_history
  have hmax : kMaxInputEvents = 62 := rfl
  have hcount : ((s.history.drop start).take (min (stop - start) kMaxInputEvents)).length =
      stop - start := by
    rw [List.length_take, List.length_drop]
    omega
  have hne : (s.history.drop start).take (min (stop - start) kMaxInputEvents) ≠ [] := by
    rw [← List.length_pos_iff, hcount]
    omega
  have hseq : (s.firstSeq + UInt32.ofNat start).toNat = s.firstSeq.toNat + start := by
    rw [UInt32.toNat_add, UInt32.toNat_ofNat']
    omega
  -- the message fits, as it holds no more events than fit in a datagram
  have hbuilt : ∃ d, s.sendRange start stop = some d := by
    unfold InputSender.sendRange buildInputEvents
    rw [if_neg (by omega), if_neg (by rw [hcount]; exact not_or.mpr ⟨hne, by omega⟩)]
    rw [writeCommon, if_neg]
    · exact ⟨_, rfl⟩
    · rw [List.length_append, length_inputEntries, hcount, List.length_append, length_putU32]
      simp only [List.length_singleton, kMaxDatagram, kCommonHeaderSize, kInputEventSize]
      omega
  rcases hbuilt with ⟨d, hd⟩
  have hparse : parseInputEvents (payloadOf d) kMaxInputEvents = some
      (s.firstSeq + UInt32.ofNat start,
        (s.history.drop start).take (min (stop - start) kMaxInputEvents)) := by
    apply @parseInputEvents_build kMaxDatagram _ s.sessionId
    · unfold InputSender.sendRange at hd
      rwa [if_neg (by omega)] at hd
    · rw [hcount]
      exact hroom
  refine ⟨d, hd, ⟨_, _, hparse, hne, ?_, ?_⟩, ?_, ?_⟩
  · rw [hseq, hcount]
    omega
  · rw [hseq, hcount, Nat.min_eq_left hroom, h.history, List.drop_drop, List.drop_take]
    congr 1
    omega
  · unfold firstEvent
    rw [hparse]
    exact hseq
  · unfold endEvent
    rw [hparse]
    show (s.firstSeq + UInt32.ofNat start).toNat + List.length _ = _
    rw [hseq, hcount]
    omega

/-- A batch behind the last sent events: what it shows joins what was sent. -/
theorem Keeps.sendBatch {s : InputSender} {queued : List InputEvent} {ds : List Bytes}
    (h : s.Keeps queued ds) (hfew : queued.length < 2 ^ 32) {batch : Nat} (hbatch : batch ≤ s.unsent)
    (hmax : batch ≤ kInputBatchMax) (hsome : s.history.length - s.unsent + batch ≠ 0) :
    ∃ d, s.sendRange (s.history.length - s.unsent -
        min (s.history.length - s.unsent) kInputRedundancy) (s.history.length - s.unsent + batch) =
          some d ∧
      { s with unsent := s.unsent - batch }.Keeps queued (ds ++ [d]) := by
  have hlen := h.length_history
  have hunsent := h.unsent_le
  have hlead := h.lead
  unfold kInputBatchMax at hmax
  unfold kInputRedundancy at hlead ⊢
  by_cases hempty : batch = 0 ∧ min (s.history.length - s.unsent) 8 = 0
  · omega
  · have hroom : 32 ≤ kMaxInputEvents := by decide
    rcases h.sendRange hfew (s.history.length - s.unsent - min (s.history.length - s.unsent) 8)
      (s.history.length - s.unsent + batch)
      (by omega) (by omega) (by omega) with ⟨d, hsend, hwindow, hfirst, hend⟩
    refine ⟨d, hsend, ?_⟩
    constructor
    · exact h.history
    · exact h.firstSeq_le
    · exact h.nextSeq
    · show s.unsent - batch ≤ s.history.length
      omega
    · show s.firstSeq.toNat = 0 ∨ 8 ≤ s.history.length - (s.unsent - batch)
      omega
    · intro e he
      rcases List.mem_append.mp he with hold | hnew
      · exact h.windows e hold
      · rw [List.mem_singleton.mp hnew]
        exact hwindow
    · show Windows.Chained _ _ _ _ (queued.length - (s.unsent - batch))
      apply Windows.Chained.snoc_iff.mpr
      refine ⟨by omega, queued.length - s.unsent, h.chained, ?_, by omega⟩
      unfold kInputRedundancy
      omega

theorem Keeps.flushBatches {s : InputSender} {queued : List InputEvent} {ds : List Bytes}
    (h : s.Keeps queued ds) (hfew : queued.length < 2 ^ 32) (fuel : Nat) :
    (flushBatches fuel s).1.Keeps queued (ds ++ (flushBatches fuel s).2) := by
  induction fuel generalizing s ds with
  | zero =>
    rw [InputSender.flushBatches, List.append_nil]
    exact h
  | succ fuel ih =>
    rw [InputSender.flushBatches]
    split
    · rw [List.append_nil]
      exact h
    · next hsome =>
      have hunsent := h.unsent_le
      have hbatch : 0 < min s.unsent kInputBatchMax := by
        unfold kInputBatchMax
        omega
      rcases h.sendBatch hfew (Nat.min_le_left s.unsent kInputBatchMax) (Nat.min_le_right _ _)
        (by omega) with ⟨d, hsend, hkeeps⟩
      have hrest := ih hkeeps
      rw [List.append_assoc] at hrest
      dsimp only
      rw [hsend]
      exact hrest

/-- The clock and the repeats left are no part of what is kept. -/
theorem Keeps.withTimer {s : InputSender} {queued : List InputEvent} {ds : List Bytes}
    (h : s.Keeps queued ds) (repeatsLeft : UInt32) (lastSendUs : UInt64) :
    { s with repeatsLeft := repeatsLeft, lastSendUs := lastSendUs }.Keeps queued ds :=
  ⟨h.history, h.firstSeq_le, h.nextSeq, h.unsent_le, h.lead, h.windows, h.chained⟩

theorem Keeps.flush {s : InputSender} {queued : List InputEvent} {ds : List Bytes}
    (h : s.Keeps queued ds) (hfew : queued.length < 2 ^ 32) (nowUs : UInt64) (canSend : Bool) :
    (s.flush nowUs canSend).1.Keeps queued (ds ++ (s.flush nowUs canSend).2) := by
  unfold InputSender.flush
  split
  · rw [List.append_nil]
    exact h
  · next hsome =>
    push Not at hsome
    have hpos : 0 < s.history.length := List.length_pos_iff.mpr hsome.1
    split
    · next hnew =>
      split
      · rw [List.append_nil]
        exact h
      · -- a repeat is a batch of no new events
        rcases h.sendBatch hfew (Nat.zero_le s.unsent) (Nat.zero_le _) (by omega) with
          ⟨d, hsend, hkeeps⟩
        rw [hnew] at hsend hkeeps
        rw [Nat.sub_zero, Nat.add_zero] at hsend
        dsimp only
        rw [hsend]
        have hsame : { s with unsent := 0 - 0 } = s := by
          rw [Nat.sub_zero, ← hnew]
        rw [hsame] at hkeeps
        exact hkeeps.withTimer _ _
    · exact (h.flushBatches hfew s.unsent).withTimer _ _

theorem queued_concat (calls : List Call) (c : Call) :
    queued (calls ++ [c]) = queued calls ++ queued [c] := by
  unfold queued
  rw [List.filterMap_append]

/-- The invariant of a sender holds in every run of fewer than `2 ^ 32` events. -/
theorem keeps_run (calls : List Call) (hfew : (queued calls).length < 2 ^ 32) :
    (machine.run {} calls).1.Keeps (queued calls) (sent calls) := by
  induction calls using List.reverseRecOn with
  | nil =>
    constructor
    · rfl
    · exact Nat.le_refl 0
    · rfl
    · exact Nat.le_refl 0
    · exact .inl rfl
    · intro d hd
      exact absurd hd List.not_mem_nil
    · exact .nil
  | append_singleton calls c ih =>
    rw [queued_concat] at hfew ⊢
    rw [List.length_append] at hfew
    have hkeeps := ih (by omega)
    unfold sent
    rw [Machine.run_concat]
    dsimp only
    cases c with
    | queue ev =>
      show (InputSender.queue _ ev).Keeps (queued calls ++ [ev]) (sent calls ++ [])
      rw [List.append_nil]
      exact hkeeps.queue ev hfew
    | flush nowUs canSend =>
      show (InputSender.flush _ nowUs canSend).1.Keeps (queued calls ++ []) (sent calls ++ _)
      rw [List.append_nil]
      exact hkeeps.flush (by omega) nowUs canSend
    | setSessionId id =>
      show (InputSender.setSessionId _ id).Keeps (queued calls ++ []) (sent calls ++ [])
      rw [List.append_nil, List.append_nil]
      exact ⟨hkeeps.history, hkeeps.firstSeq_le, hkeeps.nextSeq, hkeeps.unsent_le, hkeeps.lead,
        hkeeps.windows, hkeeps.chained⟩

end InputSender

/-- Whatever datagrams of a sender arrive, in whatever order and however often, a fresh
receiver applies a subsequence of the queued events. When they arrive in order and each
longest run of lost datagrams with an arriving one behind it brings at most
`kInputRedundancy` events that no datagram brought before, it applies every event sent up
to the last datagram that arrived. -/
theorem inputEvents_covered (calls : List InputSender.Call)
    (hfew : (InputSender.queued calls).length < 2 ^ 32) :
    (∀ arrived : List Bytes, (∀ d ∈ arrived, d ∈ InputSender.sent calls) →
      ((InputReceiver.applyAll {} arrived).2).Sublist (InputSender.queued calls)) ∧
    ∀ fates : List (Bytes × Nat), fates.map Prod.fst = InputSender.sent calls →
      Windows.Covered firstEvent endEvent kInputRedundancy fates →
      ∃ n, eventsIn ((Windows.upToArrival fates).map Prod.fst) = Finset.range n ∧
        (InputReceiver.applyAll {} (Windows.arrivals fates)).2 =
          (InputSender.queued calls).take n := by
  have hkeeps := InputSender.keeps_run calls hfew
  constructor
  · intro arrived hsent
    rw [InputReceiver.applyAll_windows 0 rfl fun d hd => hkeeps.windows d (hsent d hd)]
    exact Windows.read_sublist 0 arrived
  · intro fates hfates hgaps
    have hchain := hkeeps.chained
    rw [← hfates] at hchain
    rcases Windows.read_arrivals (InputSender.queued calls) hchain hgaps with ⟨n, hshown, hread⟩
    refine ⟨n, hshown, ?_⟩
    have harrived : ∀ d ∈ Windows.arrivals fates, ShowsWindow (InputSender.queued calls) d := by
      intro d hd
      apply hkeeps.windows
      rw [← hfates]
      rcases List.mem_flatMap.mp hd with ⟨f, hf, hcopy⟩
      rw [List.eq_of_mem_replicate hcopy]
      exact List.mem_map_of_mem hf
    rw [InputReceiver.applyAll_windows 0 rfl harrived, hread]

/-- Two key events in two datagrams, the first of which is lost. -/
def lostKeyCalls : List InputSender.Call :=
  [.queue { a := 65, state := 1 }, .flush 0 true, .queue { a := 65 }, .flush 5 true]

theorem inputEvents_covered_lostKey :
    ((InputReceiver.applyAll {} ((InputSender.sent lostKeyCalls).drop 1)).2).Sublist
        (InputSender.queued lostKeyCalls) ∧
      ∃ n, eventsIn ((Windows.upToArrival ((InputSender.sent lostKeyCalls).zip [0, 2])).map Prod.fst) =
          Finset.range n ∧
        (InputReceiver.applyAll {}
            (Windows.arrivals ((InputSender.sent lostKeyCalls).zip [0, 2]))).2 =
          (InputSender.queued lostKeyCalls).take n := by
  have h := inputEvents_covered lostKeyCalls (by decide)
  constructor
  · exact h.1 _ fun d hd => List.mem_of_mem_drop hd
  · apply h.2
    · decide
    · apply Windows.covered_of_card_le
      decide

end Deskhub
