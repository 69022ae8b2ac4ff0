import Deskhub.Session.ClipboardLink

/-!
# What the steps of two clipboards keep

The steps of a peer and of the link, what every run keeps of a peer, and what becomes
of a side whose chunks the other side refuses.
-/

namespace Deskhub

open Pieces

/-! ## Steps of one peer -/

namespace ClipboardSync

/-- A flush sends nothing, or one more time all chunks of the outgoing text. -/
theorem flush_cases (s : ClipboardSync) (nowUs : UInt64) (canSend : Bool) :
    s.flush nowUs canSend = (s, []) ∨
      (s.sendsLeft ≠ 0 ∧ s.flush nowUs canSend =
        ({ s with sendsLeft := s.sendsLeft - 1, lastSendUs := nowUs }, s.sendAllChunks)) := by
  unfold flush
  split
  · exact .inl rfl
  · next hsome =>
    push Not at hsome
    split
    · exact .inl rfl
    · exact .inr ⟨hsome.1, rfl⟩

/-- A datagram of `sendAllChunks` carries a chunk of the outgoing text. -/
theorem mem_sendAllChunks {s : ClipboardSync} (h : s.outgoing.length ≤ kMaxClipboardTextBytes)
    {d : Bytes} (hd : d ∈ s.sendAllChunks) :
    ∃ i < clipboardChunkCount s.outgoing,
      parseClipboardChunk (payloadOf d) = some (clipboardChunk s.revision s.outgoing i) := by
  have hchunk := List.mem_map_of_mem (f := fun d => parseClipboardChunk (payloadOf d)) hd
  rw [sendAllChunks_chunks h] at hchunk
  rcases List.mem_map.mp hchunk with ⟨i, hi, hparse⟩
  exact ⟨i, List.mem_range.mp hi, hparse.symm⟩

/-- Each chunk of the outgoing text is in `sendAllChunks`. -/
theorem exists_mem_sendAllChunks {s : ClipboardSync}
    (h : s.outgoing.length ≤ kMaxClipboardTextBytes) {i : Nat}
    (hi : i < clipboardChunkCount s.outgoing) :
    ∃ d ∈ s.sendAllChunks,
      parseClipboardChunk (payloadOf d) = some (clipboardChunk s.revision s.outgoing i) := by
  have hchunk : some (clipboardChunk s.revision s.outgoing i) ∈
      s.sendAllChunks.map fun d => parseClipboardChunk (payloadOf d) := by
    rw [sendAllChunks_chunks h]
    exact List.mem_map_of_mem (List.mem_range.mpr hi)
  exact List.mem_map.mp hchunk

/-- An offer is refused, or becomes the outgoing text; the receiving part stays. -/
theorem offerLocal_cases (s : ClipboardSync) (text : Bytes) :
    ((truncateClipboardText text = [] ∨ s.suppresses (truncateClipboardText text) = true) ∧
        s.offerLocal text = (s, false)) ∨
      (truncateClipboardText text ≠ [] ∧ s.suppresses (truncateClipboardText text) = false ∧
        s.offerLocal text = ({ s with
          outgoing := truncateClipboardText text
          revision := s.revision + 1
          sendsLeft := 1 + kClipboardResendCount
          lastSentHash := hashText (truncateClipboardText text)
          haveSentHash := true }, true)) := by
  unfold offerLocal
  dsimp only
  split
  · next hempty => exact .inl ⟨.inl hempty, rfl⟩
  · next hne =>
    split
    · next hsuppressed => exact .inl ⟨.inr hsuppressed, rfl⟩
    · next hnew => exact .inr ⟨hne, Bool.eq_false_of_not_eq_true hnew, rfl⟩

end ClipboardSync

namespace ClipboardPeer

theorem receive_outgoing (p : ClipboardPeer) (d : Bytes) :
    (p.receive d).flight = p.flight ∧ (p.receive d).sync.outgoing = p.sync.outgoing ∧
      (p.receive d).sync.revision = p.sync.revision ∧
      (p.receive d).sync.sendsLeft = p.sync.sendsLeft := by
  have hsync := p.sync.receive_outgoing d
  unfold receive
  dsimp only
  split
  · exact ⟨rfl, hsync⟩
  · exact ⟨rfl, hsync⟩

/-- A refused datagram changes nothing. -/
theorem receive_refused {p : ClipboardPeer} {d : Bytes}
    (h : ∀ chunk, parseClipboardChunk (payloadOf d) = some chunk → p.sync.Refuses chunk.revision) :
    p.receive d = p := by
  have hsync : p.sync.receive d = (p.sync, false) := by
    unfold ClipboardSync.receive
    cases hparse : parseClipboardChunk (payloadOf d) with
    | none => rfl
    | some chunk => exact ClipboardSync.accept_refused (h chunk hparse)
  unfold receive
  rw [hsync]
  rfl

/-- A chunk that fills a slot, or finds it filled. -/
theorem receive_hold {p : ClipboardPeer} {d : Bytes} {chunk : ClipboardChunkView}
    (hparse : parseClipboardChunk (payloadOf d) = some chunk) {s : ClipboardSync}
    (haccept : p.sync.accept chunk = (s, false)) : p.receive d = { p with sync := s } := by
  have hsync : p.sync.receive d = (s, false) := by
    unfold ClipboardSync.receive
    rw [hparse]
    exact haccept
  unfold receive
  rw [hsync]
  rfl

/-- A chunk that completes a text sets the clipboard. -/
theorem receive_complete {p : ClipboardPeer} {d : Bytes} {chunk : ClipboardChunkView}
    (hparse : parseClipboardChunk (payloadOf d) = some chunk) {revision : UInt32} {text : Bytes}
    (haccept : p.sync.accept chunk = (p.sync.complete revision text, true)) :
    p.receive d = { p with
      sync := (p.sync.complete revision text).takeCompleted.1, clipboard := text } := by
  have hsync : p.sync.receive d = (p.sync.complete revision text, true) := by
    unfold ClipboardSync.receive
    rw [hparse]
    exact haccept
  unfold receive
  rw [hsync]
  rfl

end ClipboardPeer

namespace ClipboardLink

/-! ## Steps of the link -/

theorem step_flush_self (l : ClipboardLink) (x : Side) (nowUs : UInt64) (canSend : Bool) :
    step l (.flush x nowUs canSend) x = { l x with
      sync := ((l x).sync.flush nowUs canSend).1
      flight := (l x).flight ++ ((l x).sync.flush nowUs canSend).2 } :=
  Function.update_self ..

theorem step_flush_other (l : ClipboardLink) (x : Side) (nowUs : UInt64) (canSend : Bool) :
    step l (.flush x nowUs canSend) x.other = l x.other :=
  Function.update_of_ne x.other_ne ..

theorem step_copy_self (l : ClipboardLink) (x : Side) (text : Bytes) :
    step l (.copy x text) x =
      { l x with sync := ((l x).sync.offerLocal text).1, clipboard := text } :=
  Function.update_self ..

theorem step_copy_other (l : ClipboardLink) (x : Side) (text : Bytes) :
    step l (.copy x text) x.other = l x.other :=
  Function.update_of_ne x.other_ne ..

/-- A delivery takes a datagram off the way and hands it to the other side. -/
theorem step_deliver {l : ClipboardLink} {x : Side} {i : Nat} {d : Bytes}
    (h : (l x).flight[i]? = some d) :
    step l (.deliver x i) x = { l x with flight := (l x).flight.eraseIdx i } ∧
      step l (.deliver x i) x.other = (l x.other).receive d := by
  unfold step
  dsimp only
  rw [h]
  dsimp only
  constructor
  · rw [Function.update_of_ne x.other_ne.symm, Function.update_self]
  · rw [Function.update_self]

theorem step_deliver_none {l : ClipboardLink} {x : Side} {i : Nat} (h : (l x).flight[i]? = none) :
    step l (.deliver x i) = l := by
  unfold step
  dsimp only
  rw [h]

end ClipboardLink

/-! ## Sound peers -/

/-- A datagram carries a piece of a text within the limit. -/
def CarriesPiece (d : Bytes) : Prop :=
  ∃ revision text i, text.length ≤ kMaxClipboardTextBytes ∧ i < clipboardChunkCount text ∧
    parseClipboardChunk (payloadOf d) = some (clipboardChunk revision text i)

namespace ClipboardPeer

/-- What every run keeps of a peer. -/
structure Sound (p : ClipboardPeer) : Prop where
  bounded : p.sync.outgoing.length ≤ kMaxClipboardTextBytes
  collects : p.sync.Collects
  flight : ∀ d ∈ p.flight, CarriesPiece d

/-- The receiving part of a sound peer stays sound. -/
theorem Sound.receive {p : ClipboardPeer} (h : p.Sound) {d : Bytes} (hd : CarriesPiece d) :
    (p.receive d).Sound := by
  have hframe := p.receive_outgoing d
  refine ⟨by rw [hframe.2.1]; exact h.bounded, ?_, by rw [hframe.1]; exact h.flight⟩
  rcases hd with ⟨revision, text, i, hlen, hi, hparse⟩
  by_cases hrefused : p.sync.Refuses revision
  · rw [receive_refused]
    · exact h.collects
    · intro chunk hchunk
      rw [hparse] at hchunk
      cases hchunk
      exact hrefused
  · have hslots := h.collects.slotsFor revision (n := clipboardChunkCount text) (by omega)
    have hcount : clipboardChunkCount text =
        (p.sync.slotsFor revision (clipboardChunkCount text)).length :=
      (ClipboardSync.length_slotsFor _ _ _).symm
    rcases h.collects.accept hlen hi hrefused with
      ⟨-, haccept⟩ | ⟨-, ⟨hopen, haccept⟩ | ⟨-, haccept⟩⟩
    · rw [receive_hold hparse haccept]
      exact ClipboardSync.collects_hold _ _ hslots.2 hslots.1
    · rw [receive_hold hparse haccept]
      exact ClipboardSync.collects_hold _ _ hopen (hslots.1.set hlen hcount i)
    · rw [receive_complete hparse haccept]
      have hdone := ClipboardSync.collects_complete p.sync revision
        ((p.sync.slotsFor revision (clipboardChunkCount text)).set i
          (piece kMaxClipboardChunkPayload text i)).flatten
      exact ⟨hdone.counted, hdone.opened, hdone.parts⟩

end ClipboardPeer

namespace ClipboardLink

/-- Both peers of a link are sound. -/
def Sound (l : ClipboardLink) : Prop := ∀ x, (l x).Sound

theorem Sound.step {l : ClipboardLink} (h : l.Sound) (st : Step) : (step l st).Sound := by
  intro y
  cases st with
  | copy x text =>
    rcases x.eq_or_other y with rfl | rfl
    · rw [step_copy_self]
      have hcollects := (h y).collects
      rcases (l y).sync.offerLocal_cases text with ⟨-, hsame⟩ | ⟨-, -, hoffered⟩
      · rw [hsame]
        exact ⟨(h y).bounded, hcollects, (h y).flight⟩
      · rw [hoffered]
        exact ⟨length_truncateClipboardText text,
          ⟨hcollects.counted, hcollects.opened, hcollects.parts⟩, (h y).flight⟩
    · rw [step_copy_other]
      exact h x.other
  | flush x nowUs canSend =>
    rcases x.eq_or_other y with rfl | rfl
    · rw [step_flush_self]
      have hcollects := (h y).collects
      rcases (l y).sync.flush_cases nowUs canSend with hidle | ⟨-, hsends⟩
      · rw [hidle, List.append_nil]
        exact h y
      · rw [hsends]
        refine ⟨(h y).bounded, ⟨hcollects.counted, hcollects.opened, hcollects.parts⟩, ?_⟩
        intro d hd
        rcases List.mem_append.mp hd with hold | hnew
        · exact (h y).flight d hold
        · rcases ClipboardSync.mem_sendAllChunks (h y).bounded hnew with ⟨i, hi, hparse⟩
          exact ⟨_, _, i, (h y).bounded, hi, hparse⟩
    · rw [step_flush_other]
      exact h x.other
  | deliver x i =>
    cases hget : (l x).flight[i]? with
    | none =>
      rw [step_deliver_none hget]
      exact h y
    | some d =>
      rcases step_deliver hget with ⟨hself, hother⟩
      rcases x.eq_or_other y with rfl | rfl
      · rw [hself]
        refine ⟨(h y).bounded, (h y).collects, ?_⟩
        intro e he
        exact (h y).flight e (List.mem_of_mem_eraseIdx he)
      · rw [hother]
        exact (h x.other).receive ((h x).flight d (List.mem_of_getElem? hget))

theorem run_concat (l : ClipboardLink) (steps : List Step) (st : Step) :
    run l (steps ++ [st]) = step (run l steps) st := by
  unfold run
  rw [List.foldl_append]
  rfl

theorem sound_run (steps : List Step) : (run fresh steps).Sound := by
  induction steps using List.reverseRecOn with
  | nil =>
    intro x
    refine ⟨Nat.zero_le _, ⟨rfl, .inl rfl, ?_⟩, ?_⟩
    · intro i h
      exact absurd h (Nat.not_lt_zero i)
    · intro d hd
      exact absurd hd List.not_mem_nil
  | append_singleton steps st ih =>
    rw [run_concat]
    exact ih.step st

/-! ## Sides that are not heard -/

/-- Whatever a side still has on its way or would send again is refused by the other. -/
structure Mute (l : ClipboardLink) (x : Side) : Prop where
  sends : (l x).sync.sendsLeft = 0 ∨ (l x.other).sync.Refuses (l x).sync.revision
  flight : ∀ d ∈ (l x).flight, ∀ chunk, parseClipboardChunk (payloadOf d) = some chunk →
    (l x.other).sync.Refuses chunk.revision

/-- A mute side stays mute, and the clipboard of the other side as it is. -/
theorem Mute.step {l : ClipboardLink} (hsound : l.Sound) {x : Side} (h : l.Mute x) {st : Step}
    (hst : st.isCopy = false) :
    (step l st).Mute x ∧ (step l st x.other).clipboard = (l x.other).clipboard := by
  cases st with
  | copy y text => cases hst
  | flush y nowUs canSend =>
    rcases x.eq_or_other y with rfl | rfl
    · have hself := step_flush_self l y nowUs canSend
      have hother := step_flush_other l y nowUs canSend
      rcases (l y).sync.flush_cases nowUs canSend with hidle | ⟨hleft, hsends⟩
      · rw [hidle, List.append_nil] at hself
        refine ⟨⟨?_, ?_⟩, by rw [hother]⟩
        · rw [hself, hother]
          exact h.sends
        · rw [hself, hother]
          exact h.flight
      · rw [hsends] at hself
        have hrefused := h.sends.resolve_left hleft
        refine ⟨⟨?_, ?_⟩, by rw [hother]⟩
        · rw [hself, hother]
          exact .inr hrefused
        · rw [hself, hother]
          intro d hd chunk hchunk
          rcases List.mem_append.mp hd with hold | hnew
          · exact h.flight d hold chunk hchunk
          · rcases ClipboardSync.mem_sendAllChunks (hsound y).bounded hnew with ⟨i, -, hparse⟩
            rw [hparse] at hchunk
            cases hchunk
            exact hrefused
    · have hself := step_flush_self l x.other nowUs canSend
      have hother := step_flush_other l x.other nowUs canSend
      rw [Side.other_other] at hother
      rcases (l x.other).sync.flush_cases nowUs canSend with hidle | ⟨-, hsends⟩
      · rw [hidle] at hself
        refine ⟨⟨?_, ?_⟩, by rw [hself]⟩
        · rw [hself, hother]
          exact h.sends
        · rw [hself, hother]
          exact h.flight
      · rw [hsends] at hself
        refine ⟨⟨?_, ?_⟩, by rw [hself]⟩
        · rw [hself, hother]
          exact h.sends
        · rw [hself, hother]
          exact h.flight
  | deliver y i =>
    cases hget : (l y).flight[i]? with
    | none =>
      rw [step_deliver_none hget]
      exact ⟨h, rfl⟩
    | some d =>
      rcases step_deliver hget with ⟨hself, hother⟩
      rcases x.eq_or_other y with rfl | rfl
      · -- what arrives is refused
        have hd := h.flight d (List.mem_of_getElem? hget)
        rw [ClipboardPeer.receive_refused hd] at hother
        refine ⟨⟨?_, ?_⟩, by rw [hother]⟩
        · rw [hself, hother]
          exact h.sends
        · rw [hself, hother]
          intro e he
          exact h.flight e (List.mem_of_mem_eraseIdx he)
      · rw [Side.other_other] at hother
        have hframe := (l x).receive_outgoing d
        refine ⟨⟨?_, ?_⟩, by rw [hself]⟩
        · rw [hself, hother, hframe.2.2.2, hframe.2.2.1]
          exact h.sends
        · rw [hself, hother, hframe.1]
          exact h.flight

theorem Mute.run {l : ClipboardLink} (hsound : l.Sound) {x : Side} (h : l.Mute x)
    {steps : List Step} (hsteps : ∀ st ∈ steps, st.isCopy = false) :
    (run l steps).Mute x ∧ (run l steps x.other).clipboard = (l x.other).clipboard := by
  induction steps generalizing l with
  | nil => exact ⟨h, rfl⟩
  | cons st steps ih =>
    rcases h.step hsound (hsteps st List.mem_cons_self) with ⟨hmute, hclip⟩
    rcases ih (hsound.step st) hmute fun e he => hsteps e (List.mem_cons_of_mem st he) with
      ⟨hend, hsame⟩
    exact ⟨hend, hsame.trans hclip⟩

end ClipboardLink

end Deskhub
