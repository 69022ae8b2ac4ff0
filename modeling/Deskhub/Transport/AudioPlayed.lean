import Deskhub.Transport.AudioJitterBuffer

/-!
# Audio frames once each

A frame that is held was received, and is held no longer once it came out. With the order of the
numbers this says what a run of the buffer plays.
-/

namespace Deskhub

open OrdMap SerialNumbers

/-- The frame that a call hands over. -/
def JitterCall.received? : JitterCall → Option AudioFrame
  | .push pkt =>
      if pkt.payload = [] then none
      else some { seq := pkt.hdr.seq, timestampUs := pkt.hdr.timestampUs, payload := pkt.payload }
  | _ => none

/-- A frame is played no more often than it was received. -/
def PlaysReceivedOnce (calls : List JitterCall) (out : List JitterEvent) : Prop :=
  ∀ frame : AudioFrame, frame.concealed = false →
    out.count (.returned frame) ≤ calls.countP fun call => call.received? = some frame

namespace AudioJitterBuffer

variable {s : AudioJitterBuffer}

/-! ## Once each -/

/-- Every frame held is under its own number. -/
def Keyed (s : AudioJitterBuffer) : Prop := ∀ k frame, s.held.find? k = some frame → frame.seq = k

/-- One if the frame is held. -/
def holding (s : AudioJitterBuffer) (frame : AudioFrame) : Nat :=
  if s.held.find? frame.seq = some frame then 1 else 0

theorem find?_dropBurst {n : Nat} {k : UInt32} {frame : AudioFrame}
    (h : (dropBurst n s).held.find? k = some frame) : s.held.find? k = some frame := by
  induction n generalizing s with
  | zero => exact h
  | succ n ih =>
    unfold dropBurst at h
    split at h
    · split at h
      · exact h
      · next first _ _ =>
        have hleft := ih h
        have herase : (s.held.erase first).find? k = some frame := hleft
        rw [Map.find?_erase] at herase
        split at herase
        · contradiction
        · exact herase
    · exact h

/-- What is held after a packet was, or is the packet's own frame. -/
theorem find?_hold {pkt : AudioPacketView} {k : UInt32} {frame : AudioFrame}
    (h : (s.hold pkt).held.find? k = some frame) :
    s.held.find? k = some frame ∨ k = pkt.hdr.seq ∧ frame = frameOf pkt := by
  rcases hold_cases s pkt with ⟨stats, hsame⟩ | ⟨-, hheld⟩
  · rw [hsame] at h
    exact .inl h
  · rw [hheld] at h
    have hwith : (s.held.insert pkt.hdr.seq (frameOf pkt)).find? k = some frame := find?_dropBurst h
    rw [Map.find?_insert] at hwith
    split at hwith
    · next hkey => exact .inr ⟨hkey, (Option.some.inj hwith).symm⟩
    · exact .inl hwith

/-- What a call leaves held, and what comes out, was held or came with the call. -/
structure Accounts (s s' : AudioJitterBuffer) (events : List JitterEvent) (received : Option AudioFrame) : Prop where
  keyed : s'.Keyed
  once : ∀ frame : AudioFrame, frame.concealed = false →
    events.count (.returned frame) + s'.holding frame ≤
      s.holding frame + if received = some frame then 1 else 0

theorem accounts_of_find? {s' : AudioJitterBuffer} {events : List JitterEvent} {received : Option AudioFrame}
    (hkeyed : s'.Keyed) (hquiet : ∀ frame, .returned frame ∉ events)
    (hheld : ∀ frame, s'.held.find? frame.seq = some frame →
      s.held.find? frame.seq = some frame ∨ received = some frame) :
    s.Accounts s' events received := by
  refine ⟨hkeyed, ?_⟩
  intro frame _
  rw [List.count_eq_zero_of_not_mem (hquiet frame), Nat.zero_add]
  unfold holding
  by_cases hnow : s'.held.find? frame.seq = some frame
  · rw [if_pos hnow]
    rcases hheld frame hnow with hold | hcame
    · rw [if_pos hold]
      exact Nat.le_add_right _ _
    · rw [if_pos hcame]
      exact Nat.le_add_left _ _
  · rw [if_neg hnow]
    exact Nat.zero_le _

theorem accounts_push (h : s.Keyed) (pkt : AudioPacketView) :
    s.Accounts (s.push pkt).1 (s.push pkt).2 (JitterCall.push pkt).received? := by
  have hreceived : pkt.payload ≠ [] → (JitterCall.push pkt).received? = some (frameOf pkt) := fun hne => if_neg hne
  rcases push_cases s pkt with ⟨-, hpush⟩ | ⟨hpayload, -, stats, hpush⟩ | ⟨hpayload, -, stats, hpush⟩
  · rw [hpush]
    exact accounts_of_find? h (by simp) fun frame hframe => .inl hframe
  · rw [hpush, hreceived hpayload]
    apply accounts_of_find?
    · intro k frame hframe
      rcases find?_hold hframe with hold | ⟨rfl, rfl⟩
      · contradiction
      · rfl
    · simp
    · intro frame hframe
      rcases find?_hold hframe with hold | ⟨-, hnew⟩
      · contradiction
      · exact .inr (congrArg some hnew.symm)
  · rw [hpush, hreceived hpayload]
    apply accounts_of_find?
    · intro k frame hframe
      rcases find?_hold hframe with hold | ⟨rfl, rfl⟩
      · exact h k frame hold
      · rfl
    · simp
    · intro frame hframe
      rcases find?_hold hframe with hold | ⟨-, hnew⟩
      · exact .inl hold
      · exact .inr (congrArg some hnew.symm)

theorem accounts_due (h : s.Keyed) : s.Accounts s.due.1 (s.due.2.map JitterEvent.returned).toList none := by
  rcases due_cases s with ⟨-, hout, hheld, -, -⟩ | ⟨frame, hout, hframe, hheld, -, -, -⟩
  · rw [hout]
    apply accounts_of_find?
    · intro k frame hframe
      rw [hheld] at hframe
      exact h k frame hframe
    · simp
    · intro frame hframe
      rw [hheld] at hframe
      exact .inl hframe
  · have hold : ∀ k f, s.due.1.held.find? k = some f → k ≠ s.nextSeq ∧ s.held.find? k = some f := by
      intro k f hf
      rw [hheld, Map.find?_erase] at hf
      split at hf
      · contradiction
      · next hne => exact ⟨hne, hf⟩
    refine ⟨fun k f hf => h k f (hold k f hf).2, ?_⟩
    intro f hplayed
    rw [hout]
    show [JitterEvent.returned frame].count (.returned f) + s.due.1.holding f ≤ s.holding f + 0
    by_cases hsame : frame = f
    · -- what comes out was held, and is no longer
      have hfind : s.held.find? s.nextSeq = some f := by
        rcases hframe with ⟨hconcealed, -⟩ | hfind
        · rw [hsame, hplayed] at hconcealed
          contradiction
        · rw [← hsame]
          exact hfind
      have hseq := h s.nextSeq f hfind
      have hgone : s.due.1.holding f = 0 := by
        apply if_neg
        intro hstill
        exact (hold f.seq f hstill).1 hseq
      have hwas : s.holding f = 1 := by
        apply if_pos
        rw [hseq]
        exact hfind
      rw [hsame, List.count_singleton_self, hgone, hwas]
    · have hnone : [JitterEvent.returned frame].count (.returned f) = 0 := by
        apply List.count_eq_zero_of_not_mem
        intro hmem
        have heq := List.mem_singleton.mp hmem
        exact hsame (JitterEvent.returned.inj heq).symm
      rw [hnone, Nat.zero_add, Nat.add_zero]
      unfold holding
      by_cases hnow : s.due.1.held.find? f.seq = some f
      · rw [if_pos hnow, if_pos (hold f.seq f hnow).2]
      · rw [if_neg hnow]
        exact Nat.zero_le _

theorem accounts_pop (h : s.Keyed) (hprefill : 0 < s.prefill) :
    s.Accounts s.pop.1 (s.pop.2.map JitterEvent.returned).toList none := by
  rcases pop_cases hprefill with hsame | ⟨-, hdue⟩ | ⟨-, p, -, hdue⟩
  · rw [hsame]
    exact accounts_of_find? h (by simp) fun frame hframe => .inl hframe
  · rw [hdue]
    exact accounts_due h
  · rw [hdue]
    have hstart := accounts_due (s := { s with playing := true, nextSeq := p.1 }) h
    exact ⟨hstart.keyed, hstart.once⟩

theorem prefill_dropBurst (n : Nat) (s : AudioJitterBuffer) : (dropBurst n s).prefill = s.prefill := by
  induction n generalizing s with
  | zero => rfl
  | succ n ih =>
    unfold dropBurst
    split
    · split
      · rfl
      · exact ih _
    · rfl

theorem prefill_hold (s : AudioJitterBuffer) (pkt : AudioPacketView) : (s.hold pkt).prefill = s.prefill := by
  rcases hold_cases s pkt with ⟨stats, hsame⟩ | ⟨-, hheld⟩
  · rw [hsame]
  · rw [hheld, prefill_dropBurst]
    rfl

theorem prefill_due (s : AudioJitterBuffer) : s.due.1.prefill = s.prefill := by
  rcases due_cases s with ⟨-, -, -, -, hprefill⟩ | ⟨_, -, -, -, -, -, hprefill⟩
  · exact hprefill
  · exact hprefill

/-- The number of frames to start with is the one the buffer was made with. -/
theorem prefill_step (hprefill : 0 < s.prefill) (call : JitterCall) :
    (jitterBuffer.step s call).1.prefill = s.prefill := by
  cases call with
  | push pkt =>
    show (s.push pkt).1.prefill = s.prefill
    rcases push_cases s pkt with ⟨-, hpush⟩ | ⟨-, -, stats, hpush⟩ | ⟨-, -, stats, hpush⟩
    · rw [hpush]
    · rw [hpush, prefill_hold]
      rfl
    · rw [hpush, prefill_hold]
  | pop =>
    show s.pop.1.prefill = s.prefill
    rcases pop_cases hprefill with hsame | ⟨-, hdue⟩ | ⟨-, p, -, hdue⟩
    · rw [hsame]
    · rw [hdue, prefill_due]
    · rw [hdue, prefill_due]
  | reset => rfl

theorem accounts_step (h : s.Keyed) (hprefill : 0 < s.prefill) (call : JitterCall) :
    s.Accounts (jitterBuffer.step s call).1 (jitterBuffer.step s call).2 call.received? := by
  cases call with
  | push pkt => exact accounts_push h pkt
  | pop => exact accounts_pop h hprefill
  | reset =>
    apply accounts_of_find?
    · intro k frame hframe
      contradiction
    · intro frame hmem
      exact absurd (List.mem_singleton.mp hmem) (by simp)
    · intro frame hframe
      contradiction

/-- What came out of a run and what is still held was received. -/
theorem played_run (targetDelayMs : UInt32) (calls : List JitterCall) :
    0 < (jitterBuffer.run (create targetDelayMs) calls).1.prefill ∧
      (jitterBuffer.run (create targetDelayMs) calls).1.Keyed ∧
      ∀ frame : AudioFrame, frame.concealed = false →
        (jitterBuffer.run (create targetDelayMs) calls).2.count (.returned frame) +
            (jitterBuffer.run (create targetDelayMs) calls).1.holding frame ≤
          calls.countP fun call => call.received? = some frame := by
  induction calls using List.reverseRecOn with
  | nil =>
    refine ⟨(orderly_create targetDelayMs).turn.prefill, ?_, ?_⟩
    · intro k frame hframe
      contradiction
    · intro frame _
      exact Nat.le_refl 0
  | append_singleton calls call ih =>
    obtain ⟨hprefill, hkeyed, hplayed⟩ := ih
    have hstep := accounts_step hkeyed hprefill call
    rw [Machine.run_concat]
    refine ⟨?_, hstep.keyed, ?_⟩
    · rw [prefill_step hprefill]
      exact hprefill
    · intro frame hnot
      have hbefore := hplayed frame hnot
      have hnow := hstep.once frame hnot
      rw [List.count_append, List.countP_append, List.countP_singleton]
      simp only [decide_eq_true_eq]
      omega

end AudioJitterBuffer

/-! ## The run that fails, and the runs that do not -/

theorem playsReceivedOnce_run (targetDelayMs : UInt32) (calls : List JitterCall) :
    PlaysReceivedOnce calls (jitterBuffer.run (.create targetDelayMs) calls).2 := by
  intro frame hnot
  have h := (AudioJitterBuffer.played_run targetDelayMs calls).2.2 frame hnot
  omega

/-- In a run in which no packet comes after its turn, the frames come out in order, and none
oftener than it was received. -/
theorem jitterBuffer_playsInOrder (targetDelayMs : UInt32) (calls : List JitterCall)
    (hmeets : jitterBuffer.Along AudioJitterBuffer.ComesInTurn (.create targetDelayMs) calls) :
    PlaysInOrder (jitterBuffer.run (.create targetDelayMs) calls).2 ∧
      PlaysReceivedOnce calls (jitterBuffer.run (.create targetDelayMs) calls).2 :=
  ⟨playsInOrder_of_isChain (AudioJitterBuffer.orderly_run targetDelayMs calls hmeets).chain,
    playsReceivedOnce_run targetDelayMs calls⟩

/-- A packet with one byte of sound. -/
def audioPacket (seq : UInt32) : JitterCall := .push ⟨⟨seq, 0⟩, [7]⟩

/-- A stream that goes round, with an empty buffer in between. -/
theorem jitterBuffer_playsInOrder_round :
    PlaysInOrder (jitterBuffer.run (.create 40)
        [audioPacket 0xFFFFFFFE, audioPacket 0xFFFFFFFF, .pop, audioPacket 0, .pop, .pop, .pop, audioPacket 2,
          audioPacket 1, .pop]).2 ∧
      PlaysReceivedOnce
        [audioPacket 0xFFFFFFFE, audioPacket 0xFFFFFFFF, .pop, audioPacket 0, .pop, .pop, .pop, audioPacket 2,
          audioPacket 1, .pop]
        (jitterBuffer.run (.create 40)
          [audioPacket 0xFFFFFFFE, audioPacket 0xFFFFFFFF, .pop, audioPacket 0, .pop, .pop, .pop, audioPacket 2,
            audioPacket 1, .pop]).2 :=
  jitterBuffer_playsInOrder 40 _ (by decide +kernel)

/-- The buffer ran empty, the frame comes again, and is played again. -/
theorem not_playsInOrder_again :
    ¬PlaysInOrder (jitterBuffer.run (.create 20) [audioPacket 5, .pop, .pop, audioPacket 5, .pop]).2 := by
  intro h
  have hstretch := h [] [⟨5, 0, false, [7], []⟩, ⟨5, 0, false, [7], []⟩] [] (by decide +kernel)
  exact absurd hstretch.ascending (by decide +kernel)

end Deskhub
