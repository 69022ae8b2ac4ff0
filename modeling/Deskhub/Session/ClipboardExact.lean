import Deskhub.Lib.Machine
import Deskhub.Session.ClipboardSync

/-!
# Copied texts arrive whole, in order and at most once

The runs of a `ClipboardSync`. A sender's datagrams carry pieces of the texts it was
offered, each under the number of its offer; a receiver keeps pieces of one offer at a
time and takes texts with rising numbers.
-/

namespace Deskhub

open Pieces

namespace ClipboardSync

/-- The calls a clipboard gets. -/
inductive Call where
  | offerLocal (text : Bytes)
  | flush (nowUs : UInt64) (canSend : Bool)
  | receive (datagram : Bytes)
  | takeCompleted
  | setSessionId (id : UInt32)
deriving DecidableEq, Repr

/-- What the calls bring about: a text accepted for sending, a datagram, a text taken. -/
inductive Event where
  | offered (text : Bytes)
  | sent (datagram : Bytes)
  | taken (text : Bytes)
deriving DecidableEq, Repr

/-- `Accept` of the chunk in a datagram, if there is one. -/
def receive (s : ClipboardSync) (datagram : Bytes) : ClipboardSync × Bool :=
  match parseClipboardChunk (payloadOf datagram) with
  | none => (s, false)
  | some chunk => s.accept chunk

def machine : Machine ClipboardSync Call Event where
  step
    | s, .offerLocal text =>
        ((s.offerLocal text).1, if (s.offerLocal text).2 then [.offered text] else [])
    | s, .flush nowUs canSend => ((s.flush nowUs canSend).1, (s.flush nowUs canSend).2.map .sent)
    | s, .receive d => ((s.receive d).1, [])
    | s, .takeCompleted => (s.takeCompleted.1, (s.takeCompleted.2.map Event.taken).toList)
    | s, .setSessionId id => (s.setSessionId id, [])

/-- The accepted offers among the events of a run. -/
def offered (events : List Event) : List Bytes :=
  events.filterMap fun
    | .offered text => some text
    | _ => none

def sent (events : List Event) : List Bytes :=
  events.filterMap fun
    | .sent d => some d
    | _ => none

def taken (events : List Event) : List Bytes :=
  events.filterMap fun
    | .taken text => some text
    | _ => none

theorem offered_append (xs ys : List Event) : offered (xs ++ ys) = offered xs ++ offered ys :=
  List.filterMap_append

theorem sent_append (xs ys : List Event) : sent (xs ++ ys) = sent xs ++ sent ys :=
  List.filterMap_append

theorem taken_append (xs ys : List Event) : taken (xs ++ ys) = taken xs ++ taken ys :=
  List.filterMap_append

theorem offered_map_sent (ds : List Bytes) : offered (ds.map .sent) = [] := by
  unfold offered
  rw [List.filterMap_map]
  exact List.filterMap_eq_nil_iff.mpr fun _ _ => rfl

theorem taken_map_sent (ds : List Bytes) : taken (ds.map .sent) = [] := by
  unfold taken
  rw [List.filterMap_map]
  exact List.filterMap_eq_nil_iff.mpr fun _ _ => rfl

theorem sent_map_sent (ds : List Bytes) : sent (ds.map .sent) = ds := by
  unfold sent
  rw [List.filterMap_map]
  exact List.filterMap_some

/-! ## Frames -/

/-- Receiving changes nothing of what goes out. -/
theorem accept_outgoing (s : ClipboardSync) (chunk : ClipboardChunkView) :
    (s.accept chunk).1.outgoing = s.outgoing ∧ (s.accept chunk).1.revision = s.revision ∧
      (s.accept chunk).1.sendsLeft = s.sendsLeft := by
  unfold accept
  split
  · exact ⟨rfl, rfl, rfl⟩
  · -- the slots the chunk finds come first
    generalize hadopt : (if chunk.revision ≠ s.inRevision ∨
      chunk.chunkCount.toNat ≠ s.inChunks.length then _ else s) = t
    have ht : t.outgoing = s.outgoing ∧ t.revision = s.revision ∧ t.sendsLeft = s.sendsLeft := by
      rw [← hadopt]
      split
      · exact ⟨rfl, rfl, rfl⟩
      · exact ⟨rfl, rfl, rfl⟩
    dsimp only
    split
    · exact ht
    · split
      · exact ht
      · split
        · exact ht
        · split
          · exact ht
          · exact ht

theorem receive_outgoing (s : ClipboardSync) (d : Bytes) :
    (s.receive d).1.outgoing = s.outgoing ∧ (s.receive d).1.revision = s.revision ∧
      (s.receive d).1.sendsLeft = s.sendsLeft := by
  unfold receive
  split
  · exact ⟨rfl, rfl, rfl⟩
  · exact accept_outgoing s _

/-! ## What is sent -/

/-- A datagram carries a piece of one of the offers, under its number. -/
def CarriesOffer (offers : List Bytes) (d : Bytes) : Prop :=
  ∃ revision text i, 0 < revision.toNat ∧ offers[revision.toNat - 1]? = some text ∧
    i < clipboardChunkCount text ∧
    parseClipboardChunk (payloadOf d) = some (clipboardChunk revision text i)

theorem CarriesOffer.append {offers : List Bytes} {d : Bytes} (h : CarriesOffer offers d)
    (more : List Bytes) : CarriesOffer (offers ++ more) d := by
  rcases h with ⟨revision, text, i, hpos, htext, hi, hparse⟩
  refine ⟨revision, text, i, hpos, ?_, hi, hparse⟩
  rw [List.getElem?_append_left (List.getElem?_eq_some_iff.mp htext).1]
  exact htext

/-- What holds of a sender after the offers, cut to the limit, and the datagrams. -/
structure Numbers (s : ClipboardSync) (offers ds : List Bytes) : Prop where
  revision : s.revision.toNat = offers.length
  outgoing : s.outgoing ≠ [] → offers.getLast? = some s.outgoing
  bounded : ∀ text ∈ offers, text ≠ [] ∧ text.length ≤ kMaxClipboardTextBytes
  carried : ∀ d ∈ ds, CarriesOffer offers d

theorem Numbers.offerLocal {s : ClipboardSync} {offers ds : List Bytes} (h : s.Numbers offers ds)
    {text : Bytes} (haccepted : (s.offerLocal text).2 = true) (hfew : offers.length + 1 < 2 ^ 32) :
    (s.offerLocal text).1.Numbers (offers ++ [truncateClipboardText text]) ds := by
  unfold ClipboardSync.offerLocal at haccepted ⊢
  dsimp only at haccepted ⊢
  split at haccepted
  · cases haccepted
  · next hne =>
    split at haccepted
    · cases haccepted
    · next hnew =>
      rw [if_neg hne, if_neg hnew]
      constructor
      · show (s.revision + 1).toNat = _
        have hrevision := h.revision
        rw [UInt32.toNat_add, List.length_append, List.length_singleton, hrevision]
        exact Nat.mod_eq_of_lt (by simp; omega)
      · intro _
        exact List.getLast?_concat
      · intro t ht
        rcases List.mem_append.mp ht with hold | hlast
        · exact h.bounded t hold
        · rw [List.mem_singleton.mp hlast]
          exact ⟨hne, length_truncateClipboardText text⟩
      · intro d hd
        exact (h.carried d hd).append _

theorem offerLocal_rejected {s : ClipboardSync} {text : Bytes}
    (h : (s.offerLocal text).2 = false) : (s.offerLocal text).1 = s := by
  unfold offerLocal at h ⊢
  dsimp only at h ⊢
  split
  · rfl
  · next hne =>
    rw [if_neg hne] at h
    split
    · rfl
    · next hnew =>
      rw [if_neg hnew] at h
      cases h

/-- A flush sends pieces of the last offer, or nothing. -/
theorem Numbers.flush {s : ClipboardSync} {offers ds : List Bytes} (h : s.Numbers offers ds)
    (nowUs : UInt64) (canSend : Bool) :
    (s.flush nowUs canSend).1.Numbers offers (ds ++ (s.flush nowUs canSend).2) := by
  have hidle : s.Numbers offers (ds ++ []) := by
    rw [List.append_nil]
    exact h
  unfold ClipboardSync.flush
  split
  · exact hidle
  · next hsome =>
    push Not at hsome
    split
    · exact hidle
    · have hlast := h.outgoing hsome.2.1
      have hmem := List.mem_of_getLast? hlast
      refine ⟨h.revision, h.outgoing, h.bounded, ?_⟩
      intro d hd
      rcases List.mem_append.mp hd with hold | hnew
      · exact h.carried d hold
      · -- the chunks of the outgoing text carry the number of the last offer
        have hchunk : parseClipboardChunk (payloadOf d) ∈
            s.sendAllChunks.map fun d => parseClipboardChunk (payloadOf d) :=
          List.mem_map_of_mem hnew
        rw [sendAllChunks_chunks (h.bounded _ hmem).2] at hchunk
        rcases List.mem_map.mp hchunk with ⟨i, hi, hparse⟩
        have hpos : 0 < offers.length := List.length_pos_of_mem hmem
        refine ⟨s.revision, s.outgoing, i, ?_, ?_, List.mem_range.mp hi, hparse.symm⟩
        · rw [h.revision]
          exact hpos
        · rw [h.revision, ← List.getLast?_eq_getElem?]
          exact hlast

theorem Numbers.of_outgoing {s s' : ClipboardSync} {offers ds : List Bytes}
    (h : s.Numbers offers ds) (hsame : s'.outgoing = s.outgoing ∧ s'.revision = s.revision) :
    s'.Numbers offers ds := by
  refine ⟨?_, ?_, h.bounded, h.carried⟩
  · rw [hsame.2]
    exact h.revision
  · rw [hsame.1]
    exact h.outgoing

/-- The accepted offers of a fresh clipboard's run, cut to the limit. -/
def offers (calls : List Call) : List Bytes :=
  (offered (machine.run {} calls).2).map truncateClipboardText

theorem numbers_run (calls : List Call)
    (hfew : (offered (machine.run {} calls).2).length < 2 ^ 32) :
    (machine.run {} calls).1.Numbers (offers calls) (sent (machine.run {} calls).2) := by
  induction calls using List.reverseRecOn with
  | nil =>
    constructor
    · rfl
    · intro hne
      exact absurd rfl hne
    · intro text htext
      exact absurd htext List.not_mem_nil
    · intro d hd
      exact absurd hd List.not_mem_nil
  | append_singleton calls c ih =>
    unfold offers at ih ⊢
    rw [Machine.run_concat] at hfew ⊢
    dsimp only at hfew ⊢
    rw [offered_append, List.length_append] at hfew
    rw [offered_append, sent_append, List.map_append]
    have hkeep := ih (by omega)
    generalize (machine.run {} calls).1 = s at hkeep hfew ⊢
    -- a call that offers and sends nothing
    have hquiet : ∀ s' : ClipboardSync, s'.outgoing = s.outgoing ∧ s'.revision = s.revision →
        s'.Numbers ((offered (machine.run {} calls).2).map truncateClipboardText ++ [])
          (sent (machine.run {} calls).2 ++ []) := by
      intro s' hsame
      rw [List.append_nil, List.append_nil]
      exact hkeep.of_outgoing hsame
    cases c with
    | offerLocal text =>
      have hstep : machine.step s (.offerLocal text) =
        ((s.offerLocal text).1, if (s.offerLocal text).2 then [.offered text] else []) := rfl
      rw [hstep] at hfew ⊢
      dsimp only at hfew ⊢
      cases haccepted : (s.offerLocal text).2 with
      | true =>
        rw [haccepted] at hfew
        rw [if_pos rfl]
        show (s.offerLocal text).1.Numbers (_ ++ [truncateClipboardText text]) (_ ++ [])
        rw [List.append_nil]
        apply hkeep.offerLocal haccepted
        rw [List.length_map]
        exact hfew
      | false =>
        rw [offerLocal_rejected haccepted]
        exact hquiet s ⟨rfl, rfl⟩
    | flush nowUs canSend =>
      have hstep : machine.step s (.flush nowUs canSend) =
        ((s.flush nowUs canSend).1, (s.flush nowUs canSend).2.map .sent) := rfl
      rw [hstep]
      dsimp only
      rw [offered_map_sent, sent_map_sent, List.map_nil, List.append_nil]
      exact hkeep.flush nowUs canSend
    | receive d =>
      exact hquiet (s.receive d).1 ⟨(receive_outgoing s d).1, (receive_outgoing s d).2.1⟩
    | takeCompleted =>
      have hnone : offered (s.completed.map Event.taken).toList = [] ∧
          sent (s.completed.map Event.taken).toList = [] := by
        cases s.completed with
        | none => exact ⟨rfl, rfl⟩
        | some text => exact ⟨rfl, rfl⟩
      have hstep : machine.step s .takeCompleted =
        (s.takeCompleted.1, (s.completed.map Event.taken).toList) := rfl
      rw [hstep]
      dsimp only
      rw [hnone.1, hnone.2]
      exact hquiet s.takeCompleted.1 ⟨rfl, rfl⟩
    | setSessionId id => exact hquiet (s.setSessionId id) ⟨rfl, rfl⟩

/-! ## What is taken -/

/-- The number of the last text completed, zero before the first. -/
def completedUpTo (s : ClipboardSync) : Nat :=
  if s.haveTakenRevision then s.lastTakenRevision.toNat else 0

theorem not_refuses_iff {s : ClipboardSync} {revision : UInt32} (hpos : 0 < revision.toNat) :
    ¬ s.Refuses revision ↔ s.completedUpTo < revision.toNat := by
  unfold Refuses completedUpTo
  rw [UInt32.le_iff_toNat_le]
  split
  · next h => simp [h]
  · next h => simp [h, hpos]

/-- What holds of a receiver of the datagrams of a sender with these offers. -/
structure Takes (s : ClipboardSync) (offers taken : List Bytes) : Prop where
  counted : s.inReceived = filled s.inChunks
  parts : s.inChunks = [] ∨ ∃ text, offers[s.inRevision.toNat - 1]? = some text ∧
    Fills kMaxClipboardChunkPayload text s.inChunks
  inOrder : (taken ++ s.completed.toList).Sublist (offers.take s.completedUpTo)
  applied : ∀ text, s.completed = some text →
    s.haveAppliedHash = true ∧ s.lastAppliedHash = hashText text

/-- The slots a chunk of an offer finds are slots of that offer. -/
theorem Takes.slotsFor {s : ClipboardSync} {offers taken : List Bytes} (h : s.Takes offers taken)
    {revision : UInt32} {text : Bytes} (htext : offers[revision.toNat - 1]? = some text)
    (hcount : 0 < clipboardChunkCount text) :
    Fills kMaxClipboardChunkPayload text (s.slotsFor revision (clipboardChunkCount text)) := by
  unfold ClipboardSync.slotsFor
  split
  · exact fills_replicate _ _
  · next hsame =>
    push Not at hsame
    rcases h.parts with hnone | ⟨text', htext', hfills⟩
    · rw [hnone, List.length_nil] at hsame
      omega
    · rw [← hsame.1, htext, Option.some.injEq] at htext'
      rwa [htext']

theorem Takes.hold {s : ClipboardSync} {offers taken : List Bytes} (h : s.Takes offers taken)
    {revision : UInt32} {text : Bytes} (htext : offers[revision.toNat - 1]? = some text)
    {slots : List Bytes} (hslots : Fills kMaxClipboardChunkPayload text slots) :
    (s.hold revision slots).Takes offers taken :=
  ⟨rfl, .inr ⟨text, htext, hslots⟩, h.inOrder, h.applied⟩

/-- A completed text comes behind all those completed before. -/
theorem Takes.complete {s : ClipboardSync} {offers taken : List Bytes} (h : s.Takes offers taken)
    {revision : UInt32} {text : Bytes} (htext : offers[revision.toNat - 1]? = some text)
    (hnew : s.completedUpTo < revision.toNat) :
    (s.complete revision text).Takes offers taken := by
  refine ⟨rfl, .inl rfl, ?_, ?_⟩
  · show (taken ++ [text]).Sublist (offers.take revision.toNat)
    have hsucc : revision.toNat = revision.toNat - 1 + 1 := by omega
    rw [hsucc, List.take_add_one, htext]
    apply List.Sublist.append _ (List.Sublist.refl [text])
    have htaken : taken.Sublist (offers.take s.completedUpTo) :=
      (List.sublist_append_left taken s.completed.toList).trans h.inOrder
    exact htaken.trans (List.take_sublist_take_left (by omega))
  · intro t ht
    have ht' : some text = some t := ht
    rw [← Option.some.inj ht']
    exact ⟨rfl, rfl⟩

theorem Takes.receive {s : ClipboardSync} {offers taken : List Bytes} (h : s.Takes offers taken)
    (hbounded : ∀ text ∈ offers, text ≠ [] ∧ text.length ≤ kMaxClipboardTextBytes) {d : Bytes}
    (hd : CarriesOffer offers d) : (s.receive d).1.Takes offers taken := by
  rcases hd with ⟨revision, text, i, hpos, htext, hi, hparse⟩
  have hlen := hbounded text (List.mem_of_getElem? htext)
  rcases clipboardChunk_fields hlen.2 revision hi with ⟨hindex, hcount, hpayload⟩
  unfold ClipboardSync.receive
  rw [hparse]
  dsimp only
  by_cases hrefused : s.Refuses revision
  · rw [accept_refused hrefused]
    exact h
  · have hless : (clipboardChunk revision text i).chunkIndex <
        (clipboardChunk revision text i).chunkCount := by
      rw [UInt16.lt_iff_toNat_lt, hindex, hcount]
      exact hi
    have hslots := h.slotsFor htext (by omega)
    have hslots' := hslots.set i
    rcases accept_spec h.counted hless hpayload hrefused with
      ⟨-, haccept⟩ | ⟨-, ⟨-, haccept⟩ | ⟨hfull, haccept⟩⟩
    · rw [haccept, hcount]
      exact h.hold htext hslots
    · rw [haccept, hcount, hindex]
      exact h.hold htext hslots'
    · rw [hcount, hindex] at hfull haccept
      have htogether := hslots'.flatten (by decide) hfull
      rw [haccept]
      unfold clipboardChunk
      dsimp only
      rw [htogether, truncateClipboardText_of_le hlen.2, if_neg hlen.1]
      exact h.complete htext ((not_refuses_iff hpos).mp hrefused)

/-- What is received is untouched by a call that only concerns what goes out. -/
theorem Takes.of_incoming {s s' : ClipboardSync} {offers taken : List Bytes}
    (h : s.Takes offers taken) (houtgoing : ∃ outgoing revision sendsLeft lastSendUs lastSentHash
      haveSentHash sessionId, s' = { s with
        outgoing := outgoing, revision := revision, sendsLeft := sendsLeft, lastSendUs := lastSendUs,
        lastSentHash := lastSentHash, haveSentHash := haveSentHash, sessionId := sessionId }) :
    s'.Takes offers taken := by
  rcases houtgoing with ⟨_, _, _, _, _, _, _, rfl⟩
  exact ⟨h.counted, h.parts, h.inOrder, h.applied⟩

theorem takes_run {offers : List Bytes}
    (hbounded : ∀ text ∈ offers, text ≠ [] ∧ text.length ≤ kMaxClipboardTextBytes)
    (calls : List Call) (hcarried : ∀ d, .receive d ∈ calls → CarriesOffer offers d) :
    (machine.run {} calls).1.Takes offers (taken (machine.run {} calls).2) := by
  induction calls using List.reverseRecOn with
  | nil =>
    refine ⟨rfl, .inl rfl, List.nil_sublist _, ?_⟩
    intro text htext
    cases htext
  | append_singleton calls c ih =>
    rw [Machine.run_concat, taken_append]
    have hkeep := ih fun d hd => hcarried d (List.mem_append_left _ hd)
    generalize (machine.run {} calls).1 = s at hkeep ⊢
    cases c with
    | offerLocal text =>
      have hstep : machine.step s (.offerLocal text) =
        ((s.offerLocal text).1, if (s.offerLocal text).2 then [.offered text] else []) := rfl
      have hnone : taken (if (s.offerLocal text).2 then [Event.offered text] else []) = [] := by
        split <;> rfl
      rw [hstep]
      dsimp only
      rw [hnone, List.append_nil]
      apply hkeep.of_incoming
      unfold ClipboardSync.offerLocal
      dsimp only
      split
      · exact ⟨_, _, _, _, _, _, _, rfl⟩
      · split
        · exact ⟨_, _, _, _, _, _, _, rfl⟩
        · exact ⟨_, _, _, _, _, _, _, rfl⟩
    | flush nowUs canSend =>
      have hstep : machine.step s (.flush nowUs canSend) =
        ((s.flush nowUs canSend).1, (s.flush nowUs canSend).2.map .sent) := rfl
      rw [hstep]
      dsimp only
      rw [taken_map_sent, List.append_nil]
      apply hkeep.of_incoming
      unfold ClipboardSync.flush
      split
      · exact ⟨_, _, _, _, _, _, _, rfl⟩
      · split
        · exact ⟨_, _, _, _, _, _, _, rfl⟩
        · exact ⟨_, _, _, _, _, _, _, rfl⟩
    | receive d =>
      show (s.receive d).1.Takes offers (_ ++ [])
      rw [List.append_nil]
      exact hkeep.receive hbounded (hcarried d (by simp))
    | takeCompleted =>
      have hout : taken (s.completed.map Event.taken).toList = s.completed.toList := by
        cases s.completed with
        | none => rfl
        | some text => rfl
      show s.takeCompleted.1.Takes offers (_ ++ taken (s.completed.map Event.taken).toList)
      rw [hout]
      refine ⟨hkeep.counted, hkeep.parts, ?_, ?_⟩
      · show (_ ++ []).Sublist _
        rw [List.append_nil]
        exact hkeep.inOrder
      · intro text htext
        cases htext
    | setSessionId id =>
      show (s.setSessionId id).Takes offers (_ ++ [])
      rw [List.append_nil]
      exact hkeep.of_incoming ⟨_, _, _, _, _, _, _, rfl⟩

/-- A text just taken is not offered back: the clipboard stays as it is. -/
theorem Takes.offerLocal_taken {s : ClipboardSync} {offers taken : List Bytes}
    (h : s.Takes offers taken)
    (hbounded : ∀ text ∈ offers, text ≠ [] ∧ text.length ≤ kMaxClipboardTextBytes) {text : Bytes}
    (htext : s.takeCompleted.2 = some text) :
    s.takeCompleted.1.offerLocal text = (s.takeCompleted.1, false) := by
  have hcompleted : s.completed = some text := htext
  have happlied := h.applied text hcompleted
  have hmem : text ∈ offers := by
    have hin : text ∈ taken ++ s.completed.toList := by
      rw [hcompleted]
      exact List.mem_append_right _ (List.mem_singleton_self text)
    exact List.mem_of_mem_take (h.inOrder.subset hin)
  have hlen := hbounded text hmem
  unfold ClipboardSync.offerLocal
  dsimp only
  rw [truncateClipboardText_of_le hlen.2, if_neg hlen.1, if_pos]
  unfold suppresses
  show (_ || (s.haveAppliedHash && hashText text == s.lastAppliedHash)) = true
  rw [happlied.1, happlied.2, BEq.rfl, Bool.and_self, Bool.or_true]

end ClipboardSync

/-- Whatever is offered to a clipboard and flushed, and however its datagrams are lost,
repeated and reordered on the way to another one: the texts taken there are accepted
offers, cut to the limit, in the order of the offers and each at most once; and a text
just taken is not accepted when it is offered there, and changes nothing. -/
theorem clipboardTexts_inOrder (calls calls' : List ClipboardSync.Call)
    (hfew : (ClipboardSync.offered (ClipboardSync.machine.run {} calls).2).length < 2 ^ 32)
    (harrived : ∀ d, .receive d ∈ calls' →
      d ∈ ClipboardSync.sent (ClipboardSync.machine.run {} calls).2) :
    (ClipboardSync.taken (ClipboardSync.machine.run {} calls').2).Sublist
        ((ClipboardSync.offered (ClipboardSync.machine.run {} calls).2).map truncateClipboardText) ∧
      ∀ text, (ClipboardSync.machine.run {} calls').1.takeCompleted.2 = some text →
        (ClipboardSync.machine.run {} calls').1.takeCompleted.1.offerLocal text =
          ((ClipboardSync.machine.run {} calls').1.takeCompleted.1, false) := by
  have hnumbers := ClipboardSync.numbers_run calls hfew
  have htakes := ClipboardSync.takes_run hnumbers.bounded calls'
    fun d hd => hnumbers.carried d (harrived d hd)
  constructor
  · have htaken := (List.sublist_append_left _ _).trans htakes.inOrder
    exact htaken.trans (List.take_sublist _ _)
  · intro text htext
    exact htakes.offerLocal_taken hnumbers.bounded htext

/-- One short text, sent twice. -/
def resentText : List ClipboardSync.Call :=
  [.offerLocal [104, 105], .flush 1000 true, .flush 61000 true]

/-- Both datagrams arrive, and no text is taken yet. -/
def resentArrivals : List ClipboardSync.Call :=
  (ClipboardSync.sent (ClipboardSync.machine.run {} resentText).2).map .receive

theorem clipboardTexts_inOrder_resent :
    (ClipboardSync.taken (ClipboardSync.machine.run {} resentArrivals).2).Sublist
        ((ClipboardSync.offered (ClipboardSync.machine.run {} resentText).2).map
          truncateClipboardText) ∧
      (ClipboardSync.machine.run {} resentArrivals).1.takeCompleted.1.offerLocal [104, 105] =
        ((ClipboardSync.machine.run {} resentArrivals).1.takeCompleted.1, false) := by
  have h := clipboardTexts_inOrder resentText resentArrivals (by decide) (by
    intro d hd
    rcases List.mem_map.mp hd with ⟨e, he, heq⟩
    rwa [← ClipboardSync.Call.receive.inj heq])
  constructor
  · exact h.1
  · exact h.2 [104, 105] (by decide)

end Deskhub
