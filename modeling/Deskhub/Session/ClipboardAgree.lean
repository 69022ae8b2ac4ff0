import Deskhub.Session.ClipboardPeers

/-!
# When the clipboards agree after a copy

A copy that is heard fills the slots of the other side until its text is complete there;
a copy that is not heard changes no clipboard but its own.
-/

namespace Deskhub

open Pieces

/-- The slots with the pieces of `text` in the empty ones. -/
def mergedSlots (text : Bytes) (slots : List Bytes) : List Bytes :=
  (List.range (clipboardChunkCount text)).map fun i =>
    if slots.getD i [] = [] then piece kMaxClipboardChunkPayload text i else slots.getD i []

theorem length_mergedSlots (text : Bytes) (slots : List Bytes) :
    (mergedSlots text slots).length = clipboardChunkCount text := by
  unfold mergedSlots
  rw [List.length_map, List.length_range]

theorem getElem_mergedSlots (text : Bytes) (slots : List Bytes) (i : Nat)
    (h : i < (mergedSlots text slots).length) :
    (mergedSlots text slots)[i] =
      if slots.getD i [] = [] then piece kMaxClipboardChunkPayload text i else slots.getD i [] := by
  simp only [mergedSlots, List.getElem_map, List.getElem_range]

theorem mergedSlots_full (text : Bytes) (slots : List Bytes) :
    ∀ p ∈ mergedSlots text slots, p ≠ [] := by
  intro p hp
  rcases List.getElem_of_mem hp with ⟨i, hi, rfl⟩
  rw [getElem_mergedSlots]
  rw [length_mergedSlots] at hi
  split
  · exact piece_ne_nil (by decide) hi
  · assumption

section Merged

variable {text : Bytes} (hlen : text.length ≤ kMaxClipboardTextBytes) (hne : text ≠ [])
  {slots : List Bytes} (hparts : PartsOfTexts slots)
  (hcount : slots.length = clipboardChunkCount text)

include hlen hne hparts hcount

/-- Merged slots make a cut of a text within the limit. -/
theorem mergedSlots_cut :
    Cut kMaxClipboardChunkPayload (mergedSlots text slots) ∧
      (mergedSlots text slots).flatten.length ≤ kMaxClipboardTextBytes := by
  have hmerged : PartsOfTexts (mergedSlots text slots) := by
    intro i hi
    rw [length_mergedSlots] at hi ⊢
    right
    rw [getElem_mergedSlots]
    split
    · exact ⟨text, hlen, rfl, rfl⟩
    · next hsome =>
      have hi' : i < slots.length := by rwa [hcount]
      rw [List.getD_eq_getElem _ _ hi'] at hsome ⊢
      rcases hparts i hi' with hempty | htext
      · exact absurd hempty hsome
      · rwa [← hcount]
  have hpos : 0 < (mergedSlots text slots).length := by
    rw [length_mergedSlots]
    exact clipboardChunkCount_pos hne
  rcases hmerged.full (mergedSlots_full text slots) hpos with ⟨hcut, -, hbound⟩
  exact ⟨hcut, hbound⟩

/-- Merged slots give the text exactly when the filled ones are slots of that text. -/
theorem flatten_mergedSlots_iff :
    (mergedSlots text slots).flatten = text ↔ Fills kMaxClipboardChunkPayload text slots := by
  constructor
  · intro heq
    have hcut := (mergedSlots_cut hlen hne hparts hcount).1
    refine ⟨hcount, ?_⟩
    intro i hi
    by_cases hempty : slots[i] = []
    · exact .inl hempty
    · right
      have hi' : i < (mergedSlots text slots).length := by rwa [length_mergedSlots, ← hcount]
      have hpiece := hcut.piece_flatten i hi'
      rw [heq, getElem_mergedSlots, List.getD_eq_getElem _ _ hi, if_neg hempty] at hpiece
      exact hpiece.symm
  · intro hfills
    refine Fills.flatten (c := kMaxClipboardChunkPayload) (by decide) ?_ (mergedSlots_full text slots)
    refine ⟨length_mergedSlots text slots, ?_⟩
    intro i hi
    right
    rw [getElem_mergedSlots]
    split
    · rfl
    · next hsome =>
      rw [length_mergedSlots, ← hcount] at hi
      rw [List.getD_eq_getElem _ _ hi] at hsome ⊢
      exact (hfills.2 i hi).resolve_left hsome

end Merged

namespace ClipboardLink

/-! ## A text on its way -/

/-- The other side still waits for chunks of the text: its filled slots are those it had
and pieces of the text, and what is missing is on its way or not yet sent. -/
structure Waiting (l : ClipboardLink) (x : Side) (text : Bytes) (revision : UInt32)
    (slots : List Bytes) : Prop where
  heard : ¬ (l x.other).sync.Refuses revision
  slots : ∀ i < clipboardChunkCount text,
    ((l x.other).sync.slotsFor revision (clipboardChunkCount text)).getD i [] = slots.getD i [] ∨
      (slots.getD i [] = [] ∧
        ((l x.other).sync.slotsFor revision (clipboardChunkCount text)).getD i [] =
          piece kMaxClipboardChunkPayload text i)
  pending : (l x).sync.sendsLeft = 1 + kClipboardResendCount ∨ ∀ i < clipboardChunkCount text,
    ((l x.other).sync.slotsFor revision (clipboardChunkCount text)).getD i [] ≠ [] ∨
      ∃ d ∈ (l x).flight,
        parseClipboardChunk (payloadOf d) = some (clipboardChunk revision text i)

/-- A text of side `x` on its way to the other side, which held `slots` for it. -/
structure Spreading (l : ClipboardLink) (x : Side) (text : Bytes) (revision : UInt32)
    (slots : List Bytes) : Prop where
  outgoing : (l x).sync.outgoing = text
  numbered : (l x).sync.revision = revision
  flight : ∀ d ∈ (l x).flight, ∃ i < clipboardChunkCount text,
    parseClipboardChunk (payloadOf d) = some (clipboardChunk revision text i)
  target : Waiting l x text revision slots ∨
    ((l x.other).sync.Refuses revision ∧ (l x.other).clipboard = (mergedSlots text slots).flatten)

variable {l : ClipboardLink} {x : Side} {text : Bytes} {revision : UInt32} {slots : List Bytes}

/-- More on the way is no harm to a text that waits. -/
theorem Waiting.mono {l' : ClipboardLink} (h : Waiting l x text revision slots)
    (hother : (l' x.other).sync.haveTakenRevision = (l x.other).sync.haveTakenRevision ∧
      (l' x.other).sync.lastTakenRevision = (l x.other).sync.lastTakenRevision ∧
      (l' x.other).sync.inRevision = (l x.other).sync.inRevision ∧
      (l' x.other).sync.inChunks = (l x.other).sync.inChunks)
    (hleft : (l' x).sync.sendsLeft = (l x).sync.sendsLeft)
    (hflight : ∀ d ∈ (l x).flight, d ∈ (l' x).flight) : Waiting l' x text revision slots := by
  have hslots : (l' x.other).sync.slotsFor revision (clipboardChunkCount text) =
      (l x.other).sync.slotsFor revision (clipboardChunkCount text) := by
    unfold ClipboardSync.slotsFor
    rw [hother.2.2.1, hother.2.2.2]
  refine ⟨?_, ?_, ?_⟩
  · unfold ClipboardSync.Refuses
    rw [hother.1, hother.2.1]
    exact h.heard
  · rw [hslots]
    exact h.slots
  · rw [hslots, hleft]
    rcases h.pending with hunsent | hall
    · exact .inl hunsent
    · right
      intro i hi
      rcases hall i hi with hfilled | ⟨d, hd, hparse⟩
      · exact .inl hfilled
      · exact .inr ⟨d, hflight d hd, hparse⟩

/-- Chunks of one text differ in their places. -/
theorem clipboardChunk_inj (hlen : text.length ≤ kMaxClipboardTextBytes) {j k : Nat}
    (hj : j < clipboardChunkCount text) (hk : k < clipboardChunkCount text)
    (h : clipboardChunk revision text j = clipboardChunk revision text k) : j = k := by
  have hindex : (clipboardChunk revision text j).chunkIndex.toNat =
      (clipboardChunk revision text k).chunkIndex.toNat := by rw [h]
  rwa [(clipboardChunk_fields hlen revision hj).1, (clipboardChunk_fields hlen revision hk).1]
    at hindex

/-- Chunk `j` is delivered and finds a place in `slots'`, which else are as they were. -/
theorem Waiting.held (hlen : text.length ≤ kMaxClipboardTextBytes)
    (h : Waiting l x text revision slots) {i j : Nat} {d : Bytes}
    (hget : (l x).flight[i]? = some d) (hj : j < clipboardChunkCount text)
    (hparse : parseClipboardChunk (payloadOf d) = some (clipboardChunk revision text j))
    {slots' : List Bytes} (hcount : slots'.length = clipboardChunkCount text)
    (hreceive : (l x.other).receive d =
      { l x.other with sync := (l x.other).sync.hold revision slots' })
    (hplace : slots'.getD j [] ≠ [] ∧ (slots'.getD j [] = slots.getD j [] ∨
      (slots.getD j [] = [] ∧ slots'.getD j [] = piece kMaxClipboardChunkPayload text j)))
    (hrest : ∀ k, k ≠ j → slots'.getD k [] =
      ((l x.other).sync.slotsFor revision (clipboardChunkCount text)).getD k []) :
    Waiting (step l (.deliver x i)) x text revision slots := by
  rcases step_deliver hget with ⟨hself, hother⟩
  have hslots' : (step l (.deliver x i) x.other).sync.slotsFor revision
      (clipboardChunkCount text) = slots' := by
    rw [hother, hreceive]
    unfold ClipboardSync.slotsFor ClipboardSync.hold
    rw [if_neg (by rw [hcount]; exact not_or.mpr ⟨not_not.mpr rfl, not_not.mpr rfl⟩)]
  refine ⟨?_, ?_, ?_⟩
  · rw [hother, hreceive]
    exact h.heard
  · rw [hslots']
    intro k hk
    by_cases hkj : k = j
    · rw [hkj]
      exact hplace.2
    · rw [hrest k hkj]
      exact h.slots k hk
  · rw [hslots', hself]
    rcases h.pending with hunsent | hall
    · exact .inl hunsent
    · right
      intro k hk
      by_cases hkj : k = j
      · rw [hkj]
        exact .inl hplace.1
      · rw [hrest k hkj]
        rcases hall k hk with hfilled | ⟨e, he, hchunk⟩
        · exact .inl hfilled
        · -- another chunk is still on its way
          right
          refine ⟨e, ?_, hchunk⟩
          rcases List.getElem?_of_mem he with ⟨m, hm⟩
          apply List.mem_eraseIdx_iff_getElem?.mpr
          refine ⟨m, ?_, hm⟩
          rintro rfl
          rw [hget, Option.some.injEq] at hm
          rw [← hm, hparse, Option.some.injEq] at hchunk
          exact hkj (clipboardChunk_inj hlen hj hk hchunk).symm

/-- A slot of a table in which another one is set. -/
theorem getD_set_slot {slots : List Bytes} {j : Nat} (hj : j < slots.length) (p : Bytes) (k : Nat) :
    (slots.set j p).getD k [] = if k = j then p else slots.getD k [] := by
  rw [List.getD_eq_getElem?_getD, List.getD_eq_getElem?_getD]
  split
  · next hk =>
    rw [hk, List.getElem?_set_self hj]
    rfl
  · next hk => rw [List.getElem?_set_ne (Ne.symm hk)]

/-- A chunk that is delivered to a side waiting for it. -/
theorem Waiting.deliver (hsound : l.Sound) (hlen : text.length ≤ kMaxClipboardTextBytes)
    (h : Waiting l x text revision slots) {i j : Nat} {d : Bytes}
    (hget : (l x).flight[i]? = some d) (hj : j < clipboardChunkCount text)
    (hparse : parseClipboardChunk (payloadOf d) = some (clipboardChunk revision text j)) :
    Waiting (step l (.deliver x i)) x text revision slots ∨
      ((step l (.deliver x i) x.other).sync.Refuses revision ∧
        (step l (.deliver x i) x.other).clipboard = (mergedSlots text slots).flatten) := by
  have hother := (step_deliver hget).2
  have hcount := ClipboardSync.length_slotsFor (l x.other).sync revision (clipboardChunkCount text)
  have hset := getD_set_slot (hcount.symm ▸ hj) (piece kMaxClipboardChunkPayload text j)
  have hpiece : piece kMaxClipboardChunkPayload text j ≠ [] := piece_ne_nil (by decide) hj
  have hempty_start : ((l x.other).sync.slotsFor revision (clipboardChunkCount text)).getD j [] = [] →
      slots.getD j [] = [] := by
    intro hempty
    rcases h.slots j hj with hsame | ⟨hnone, -⟩
    · rw [← hsame]
      exact hempty
    · exact hnone
  rcases (hsound x.other).collects.accept hlen hj h.heard with
    ⟨hthere, haccept⟩ | ⟨hempty, ⟨-, haccept⟩ | ⟨hfull, haccept⟩⟩
  · left
    apply h.held hlen hget hj hparse hcount (ClipboardPeer.receive_hold hparse haccept)
    · exact ⟨hthere, h.slots j hj⟩
    · exact fun k _ => rfl
  · left
    apply h.held hlen hget hj hparse (by rw [List.length_set]; exact hcount)
      (ClipboardPeer.receive_hold hparse haccept)
    · rw [hset j, if_pos rfl]
      exact ⟨hpiece, .inr ⟨hempty_start hempty, rfl⟩⟩
    · intro k hk
      rw [hset k, if_neg hk]
  · right
    rw [hother, ClipboardPeer.receive_complete hparse haccept]
    refine ⟨⟨rfl, UInt32.le_refl revision⟩, ?_⟩
    show List.flatten _ = List.flatten _
    congr 1
    -- every slot is filled: with what was there, or with its piece
    apply List.ext_getElem
    · rw [List.length_set, hcount, length_mergedSlots]
    · intro k hk hk'
      have hkc : k < clipboardChunkCount text := by rwa [length_mergedSlots] at hk'
      have hsome := hfull _ (List.getElem_mem hk)
      rw [getElem_mergedSlots]
      rw [← List.getD_eq_getElem _ [] hk, hset k] at hsome ⊢
      by_cases hkj : k = j
      · rw [if_pos hkj, hkj, if_pos (hempty_start hempty)]
      · rw [if_neg hkj] at hsome ⊢
        rcases h.slots k hkc with hsame | ⟨hnone, hfilled⟩
        · rw [hsame] at hsome ⊢
          rw [if_neg hsome]
        · rw [if_pos hnone, hfilled]

theorem Spreading.step (hsound : l.Sound) (hlen : text.length ≤ kMaxClipboardTextBytes)
    (h : Spreading l x text revision slots) {st : Step} (hst : st.isCopy = false) :
    Spreading (step l st) x text revision slots := by
  cases st with
  | copy y t => cases hst
  | flush y nowUs canSend =>
    rcases x.eq_or_other y with rfl | rfl
    · have hself := step_flush_self l y nowUs canSend
      have hother := step_flush_other l y nowUs canSend
      rcases (l y).sync.flush_cases nowUs canSend with hidle | ⟨hleft, hsends⟩
      · rw [hidle, List.append_nil] at hself
        refine ⟨by rw [hself]; exact h.outgoing, by rw [hself]; exact h.numbered,
          by rw [hself]; exact h.flight, ?_⟩
        rcases h.target with hwait | hdone
        · left
          apply hwait.mono
          · rw [hother]
            exact ⟨rfl, rfl, rfl, rfl⟩
          · rw [hself]
          · rw [hself]
            exact fun d hd => hd
        · right
          rw [hother]
          exact hdone
      · rw [hsends] at hself
        have hbound := (hsound y).bounded
        refine ⟨by rw [hself]; exact h.outgoing, by rw [hself]; exact h.numbered, ?_, ?_⟩
        · rw [hself]
          intro d hd
          rcases List.mem_append.mp hd with hold | hnew
          · exact h.flight d hold
          · rcases ClipboardSync.mem_sendAllChunks hbound hnew with ⟨i, hi, hparse⟩
            rw [h.outgoing] at hi
            rw [h.outgoing, h.numbered] at hparse
            exact ⟨i, hi, hparse⟩
        · rcases h.target with hwait | hdone
          · left
            refine ⟨by rw [hother]; exact hwait.heard, by rw [hother]; exact hwait.slots, .inr ?_⟩
            -- now all chunks are on their way
            intro i hi
            have hi' : i < clipboardChunkCount (l y).sync.outgoing := by rwa [h.outgoing]
            rcases ClipboardSync.exists_mem_sendAllChunks hbound hi' with ⟨d, hd, hparse⟩
            rw [h.outgoing, h.numbered] at hparse
            right
            refine ⟨d, ?_, hparse⟩
            rw [hself]
            exact List.mem_append_right _ hd
          · right
            rw [hother]
            exact hdone
    · have hself := step_flush_self l x.other nowUs canSend
      have hother := step_flush_other l x.other nowUs canSend
      rw [Side.other_other] at hother
      have hkeeps : (ClipboardLink.step l (.flush x.other nowUs canSend) x.other).sync.haveTakenRevision =
            (l x.other).sync.haveTakenRevision ∧
          (ClipboardLink.step l (.flush x.other nowUs canSend) x.other).sync.lastTakenRevision =
            (l x.other).sync.lastTakenRevision ∧
          (ClipboardLink.step l (.flush x.other nowUs canSend) x.other).sync.inRevision =
            (l x.other).sync.inRevision ∧
          (ClipboardLink.step l (.flush x.other nowUs canSend) x.other).sync.inChunks =
            (l x.other).sync.inChunks ∧
          (ClipboardLink.step l (.flush x.other nowUs canSend) x.other).clipboard =
            (l x.other).clipboard := by
        rw [hself]
        rcases (l x.other).sync.flush_cases nowUs canSend with hidle | ⟨-, hsends⟩
        · rw [hidle]
          exact ⟨rfl, rfl, rfl, rfl, rfl⟩
        · rw [hsends]
          exact ⟨rfl, rfl, rfl, rfl, rfl⟩
      refine ⟨by rw [hother]; exact h.outgoing, by rw [hother]; exact h.numbered,
        by rw [hother]; exact h.flight, ?_⟩
      rcases h.target with hwait | hdone
      · left
        apply hwait.mono
        · exact ⟨hkeeps.1, hkeeps.2.1, hkeeps.2.2.1, hkeeps.2.2.2.1⟩
        · rw [hother]
        · rw [hother]
          exact fun d hd => hd
      · right
        unfold ClipboardSync.Refuses
        rw [hkeeps.1, hkeeps.2.1, hkeeps.2.2.2.2]
        exact hdone
  | deliver y i =>
    cases hget : (l y).flight[i]? with
    | none =>
      rw [step_deliver_none hget]
      exact h
    | some d =>
      rcases step_deliver hget with ⟨hself, hother⟩
      rcases x.eq_or_other y with rfl | rfl
      · rcases h.flight d (List.mem_of_getElem? hget) with ⟨j, hj, hparse⟩
        refine ⟨by rw [hself]; exact h.outgoing, by rw [hself]; exact h.numbered, ?_, ?_⟩
        · rw [hself]
          intro e he
          exact h.flight e (List.mem_of_mem_eraseIdx he)
        · rcases h.target with hwait | hdone
          · exact hwait.deliver hsound hlen hget hj hparse
          · right
            rw [hother, ClipboardPeer.receive_refused]
            · exact hdone
            · intro chunk hchunk
              rw [hparse] at hchunk
              cases hchunk
              exact hdone.1
      · rw [Side.other_other] at hother
        have hframe := (l x).receive_outgoing d
        refine ⟨by rw [hother, hframe.2.1]; exact h.outgoing,
          by rw [hother, hframe.2.2.1]; exact h.numbered,
          by rw [hother, hframe.1]; exact h.flight, ?_⟩
        rcases h.target with hwait | hdone
        · left
          apply hwait.mono
          · rw [hself]
            exact ⟨rfl, rfl, rfl, rfl⟩
          · rw [hother, hframe.2.2.2]
          · rw [hother, hframe.1]
            exact fun e he => he
        · right
          rw [hself]
          exact hdone

theorem Spreading.run (hsound : l.Sound) (hlen : text.length ≤ kMaxClipboardTextBytes)
    (h : Spreading l x text revision slots) {steps : List Step}
    (hsteps : ∀ st ∈ steps, st.isCopy = false) : Spreading (run l steps) x text revision slots := by
  induction steps generalizing l with
  | nil => exact h
  | cons st steps ih =>
    exact ih (hsound.step st) (h.step hsound hlen (hsteps st List.mem_cons_self))
      fun e he => hsteps e (List.mem_cons_of_mem st he)

/-- Once all of it arrived the text is complete on the other side. -/
theorem Spreading.delivered (hsound : l.Sound) (h : Spreading l x text revision slots)
    (hne : text ≠ []) (hdone : l.Delivered x) :
    (l x.other).clipboard = (mergedSlots text slots).flatten := by
  rcases h.target with hwait | ⟨-, hclip⟩
  · exfalso
    have hpos := clipboardChunkCount_pos hne
    rcases ((hsound x.other).collects.slotsFor revision hpos).2 with ⟨p, hp, hempty⟩
    rcases List.getElem_of_mem hp with ⟨i, hi, hget⟩
    have hi' : i < clipboardChunkCount text := by rwa [ClipboardSync.length_slotsFor] at hi
    rcases hwait.pending with hunsent | hall
    · have hleft := hdone.2
      rw [hunsent] at hleft
      exact absurd hleft (by decide)
    · rcases hall i hi' with hfilled | ⟨d, hd, -⟩
      · rw [List.getD_eq_getElem _ _ hi, hget] at hfilled
        exact hfilled hempty
      · rw [hdone.1 x] at hd
        exact List.not_mem_nil hd
  · exact hclip

end ClipboardLink

namespace ClipboardLink

/-- A side that all came through from is mute, as far as it was before the copy. -/
theorem Quiet.mute {l : ClipboardLink} (h : l.Quiet) (x : Side) : l.Mute x := by
  refine ⟨(h x).2, ?_⟩
  rw [(h x).1]
  intro d hd
  exact absurd hd List.not_mem_nil

/-- A copy leaves the other side as mute as it was. -/
theorem Mute.copy {l : ClipboardLink} {x : Side} (h : l.Mute x.other) (text : Bytes) :
    (ClipboardLink.step l (.copy x text)).Mute x.other := by
  have hself := step_copy_self l x text
  have hother := step_copy_other l x text
  have hsends := h.sends
  have hflight := h.flight
  rw [Side.other_other] at hsends hflight
  rcases (l x).sync.offerLocal_cases text with ⟨-, hsame⟩ | ⟨-, -, hoffered⟩
  · rw [hsame] at hself
    constructor
    · rw [Side.other_other, hself, hother]
      exact hsends
    · rw [Side.other_other, hself, hother]
      exact hflight
  · rw [hoffered] at hself
    constructor
    · rw [Side.other_other, hself, hother]
      exact hsends
    · rw [Side.other_other, hself, hother]
      exact hflight

/-- A copy that is not heard leaves its own side mute. -/
theorem Quiet.mute_copy {l : ClipboardLink} (h : l.Quiet) {x : Side} {text : Bytes}
    (hunheard : ¬ (truncateClipboardText text ≠ [] ∧
      (l x).sync.suppresses (truncateClipboardText text) = false ∧
      ¬ (l x.other).sync.Refuses ((l x).sync.revision + 1))) :
    (ClipboardLink.step l (.copy x text)).Mute x := by
  have hself := step_copy_self l x text
  have hother := step_copy_other l x text
  rcases (l x).sync.offerLocal_cases text with ⟨-, hsame⟩ | ⟨hne, hnew, hoffered⟩
  · rw [hsame] at hself
    constructor
    · rw [hself, hother]
      exact (h.mute x).sends
    · rw [hself, hother]
      exact (h.mute x).flight
  · rw [hoffered] at hself
    constructor
    · rw [hself, hother]
      right
      by_contra hheard
      exact hunheard ⟨hne, hnew, hheard⟩
    · rw [hself, hother]
      exact (h.mute x).flight

/-- A copy that is heard is on its way. -/
theorem spreading_copy {l : ClipboardLink} (h : l.Quiet) {x : Side} {text : Bytes}
    (hne : truncateClipboardText text ≠ [])
    (hnew : (l x).sync.suppresses (truncateClipboardText text) = false)
    (hheard : ¬ (l x.other).sync.Refuses ((l x).sync.revision + 1)) :
    Spreading (ClipboardLink.step l (.copy x text)) x (truncateClipboardText text) ((l x).sync.revision + 1)
      ((l x.other).sync.slotsFor ((l x).sync.revision + 1)
        (clipboardChunkCount (truncateClipboardText text))) := by
  have hself := step_copy_self l x text
  have hother := step_copy_other l x text
  rcases (l x).sync.offerLocal_cases text with ⟨hrefused, -⟩ | ⟨-, -, hoffered⟩
  · rcases hrefused with hempty | hsuppressed
    · exact absurd hempty hne
    · rw [hnew] at hsuppressed
      cases hsuppressed
  · rw [hoffered] at hself
    refine ⟨by rw [hself], by rw [hself], ?_, .inl ⟨?_, ?_, ?_⟩⟩
    · rw [hself]
      intro d hd
      have hnone : d ∈ (l x).flight := hd
      rw [(h x).1] at hnone
      exact absurd hnone List.not_mem_nil
    · rw [hother]
      exact hheard
    · rw [hother]
      exact fun i _ => .inl rfl
    · rw [hself]
      exact .inl rfl

end ClipboardLink

/-- A copy made once everything before it is through, with no copy behind it: when all its
chunks have arrived, both clipboards hold its text exactly when it was heard as a text of
its own, or, if it was not heard, when the other clipboard held it already. -/
theorem clipboards_agree_iff (before after : List ClipboardLink.Step) (side : Side) (text : Bytes)
    (hquiet : (ClipboardLink.run .fresh before).Quiet)
    (hafter : ∀ st ∈ after, st.isCopy = false)
    (hdone : (ClipboardLink.run .fresh (before ++ .copy side text :: after)).Delivered side) :
    (ClipboardLink.run .fresh (before ++ .copy side text :: after)).Agree text ↔
      (ClipboardLink.run .fresh before).Spreads side text := by
  have hsound := ClipboardLink.sound_run before
  have hrun : ClipboardLink.run .fresh (before ++ .copy side text :: after) =
      ClipboardLink.run (ClipboardLink.step (ClipboardLink.run .fresh before) (.copy side text))
        after := by
    unfold ClipboardLink.run
    rw [List.foldl_append]
    rfl
  rw [hrun] at hdone ⊢
  generalize ClipboardLink.run .fresh before = l at hquiet hsound hdone ⊢
  have hsound' := hsound.step (.copy side text)
  have hsoundEnd : (ClipboardLink.run (ClipboardLink.step l (.copy side text)) after).Sound := by
    clear hdone hafter hrun
    induction after using List.reverseRecOn with
    | nil => exact hsound'
    | append_singleton steps st ih =>
      rw [ClipboardLink.run_concat]
      exact ih.step st
  -- the clipboard of the copying side holds the text to the end
  have hown : (ClipboardLink.run (ClipboardLink.step l (.copy side text)) after side).clipboard =
      text := by
    have hmute := ((hquiet.mute side.other).copy text).run hsound' hafter
    rw [Side.other_other] at hmute
    rw [hmute.2, ClipboardLink.step_copy_self]
  have hagree : (ClipboardLink.run (ClipboardLink.step l (.copy side text)) after).Agree text ↔
      truncateClipboardText (ClipboardLink.run (ClipboardLink.step l (.copy side text)) after
        side.other).clipboard = truncateClipboardText text := by
    constructor
    · exact fun h => h side.other
    · intro h y
      rcases side.eq_or_other y with rfl | rfl
      · rw [hown]
      · exact h
  rw [hagree]
  unfold ClipboardLink.Spreads
  dsimp only
  have hlen := length_truncateClipboardText text
  split
  · next hheard =>
    have hslots := (hsound side.other).collects.slotsFor ((l side).sync.revision + 1)
      (clipboardChunkCount_pos hheard.1)
    have hcount := ClipboardSync.length_slotsFor (l side.other).sync ((l side).sync.revision + 1)
      (clipboardChunkCount (truncateClipboardText text))
    have hspread := (ClipboardLink.spreading_copy hquiet hheard.1 hheard.2.1 hheard.2.2).run
      hsound' hlen hafter
    rw [hspread.delivered hsoundEnd hheard.1 hdone,
      truncateClipboardText_of_le (mergedSlots_cut hlen hheard.1 hslots.1 hcount).2]
    exact flatten_mergedSlots_iff hlen hheard.1 hslots.1 hcount
  · next hunheard =>
    have hmute := (hquiet.mute_copy hunheard).run hsound' hafter
    rw [hmute.2, ClipboardLink.step_copy_other]

/-- One copy, its chunk sent and delivered. -/
theorem clipboards_agree_iff_once :
    (ClipboardLink.run .fresh ([] ++ .copy .left [88] :: [.flush .left 0 true, .deliver .left 0])).Agree
        [88] ↔
      (ClipboardLink.run .fresh []).Spreads .left [88] := by
  apply clipboards_agree_iff
  · intro x
    cases x <;> decide
  · decide
  · constructor
    · intro x
      cases x <;> decide
    · decide

/-- A text copied on the left, another one on the right, and each delivered. -/
def copiedOnBothSides : List ClipboardLink.Step :=
  [.copy .left [88], .flush .left 0 true, .deliver .left 0,
    .copy .right [89], .flush .right 0 true, .deliver .right 0]

/-- Copying the first text again on the left: it is the last one sent from there, so it is
not offered, and the right clipboard keeps the second text. -/
theorem recopied_not_agree :
    (ClipboardLink.run .fresh copiedOnBothSides).Quiet ∧
      (ClipboardLink.run .fresh (copiedOnBothSides ++ [.copy .left [88]])).Delivered .left ∧
      ClipboardSync.hashText [88] ≠ ClipboardSync.hashText [89] ∧
      ¬ (ClipboardLink.run .fresh (copiedOnBothSides ++ [.copy .left [88]])).Agree [88] := by
  refine ⟨?_, ⟨?_, ?_⟩, ?_, ?_⟩
  · intro x
    cases x <;> decide
  · intro x
    cases x <;> decide
  · decide
  · decide
  · intro hagree
    exact absurd (hagree .right) (by decide)

end Deskhub
