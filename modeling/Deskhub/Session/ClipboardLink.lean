import Deskhub.Session.ClipboardExact
import Mathlib.Logic.Function.Basic

/-!
# Two clipboards

Two peers, each with a clipboard and a `ClipboardSync`, and the chunks on their way
between them. A copy sets the clipboard of its side and is offered there; a text that
is completed sets the clipboard of the side that received it.
-/

namespace Deskhub

open Pieces

inductive Side where
  | left | right
deriving DecidableEq, Repr

def Side.other : Side → Side
  | .left => .right
  | .right => .left

@[simp] theorem Side.other_other (x : Side) : x.other.other = x := by cases x <;> rfl

@[simp] theorem Side.other_ne (x : Side) : x.other ≠ x := by cases x <;> decide

theorem Side.eq_or_other (x y : Side) : y = x ∨ y = x.other := by
  cases x <;> cases y <;> decide

structure ClipboardPeer where
  sync : ClipboardSync := {}
  clipboard : Bytes := []
  /-- The datagrams on their way to the other side. -/
  flight : List Bytes := []
deriving DecidableEq, Repr

/-- A datagram arrives: a text it completes is taken and set. -/
def ClipboardPeer.receive (p : ClipboardPeer) (d : Bytes) : ClipboardPeer :=
  let accepted := p.sync.receive d
  if accepted.2 then
    let took := accepted.1.takeCompleted
    { p with sync := took.1, clipboard := took.2.getD p.clipboard }
  else { p with sync := accepted.1 }

abbrev ClipboardLink := Side → ClipboardPeer

namespace ClipboardLink

def fresh : ClipboardLink := fun _ => {}

inductive Step where
  | copy (side : Side) (text : Bytes)
  | flush (side : Side) (nowUs : UInt64) (canSend : Bool)
  | deliver (side : Side) (i : Nat)
deriving DecidableEq, Repr

def Step.isCopy : Step → Bool
  | .copy _ _ => true
  | _ => false

def step (l : ClipboardLink) : Step → ClipboardLink
  | .copy side text =>
      Function.update l side
        { l side with sync := ((l side).sync.offerLocal text).1, clipboard := text }
  | .flush side nowUs canSend =>
      let flushed := (l side).sync.flush nowUs canSend
      Function.update l side
        { l side with sync := flushed.1, flight := (l side).flight ++ flushed.2 }
  | .deliver side i =>
      match (l side).flight[i]? with
      | none => l
      | some d =>
        let sent := Function.update l side { l side with flight := (l side).flight.eraseIdx i }
        Function.update sent side.other ((l side.other).receive d)

def run (l : ClipboardLink) (steps : List Step) : ClipboardLink := steps.foldl step l

/-- All that was copied so far is through: nothing is on its way, and what a side would
still repeat is refused by the other. -/
def Quiet (l : ClipboardLink) : Prop :=
  ∀ x, (l x).flight = [] ∧
    ((l x).sync.sendsLeft = 0 ∨ (l x.other).sync.Refuses (l x).sync.revision)

/-- The last copy of a side went out and everything arrived. -/
def Delivered (l : ClipboardLink) (side : Side) : Prop :=
  (∀ x, (l x).flight = []) ∧ (l side).sync.sendsLeft ≤ kClipboardResendCount

/-- Both clipboards hold the text, up to the limit. -/
def Agree (l : ClipboardLink) (text : Bytes) : Prop :=
  ∀ x, truncateClipboardText (l x).clipboard = truncateClipboardText text

/-- When a copy reaches the other side: its text is not empty, not suppressed and gets a
number the other side does not refuse, and the other side holds no piece of another text
under that number. A copy that is not heard changes nothing there. -/
def Spreads (l : ClipboardLink) (side : Side) (text : Bytes) : Prop :=
  let bounded := truncateClipboardText text
  let revision := (l side).sync.revision + 1
  if bounded ≠ [] ∧ (l side).sync.suppresses bounded = false ∧
      ¬ (l side.other).sync.Refuses revision then
    Fills kMaxClipboardChunkPayload bounded
      ((l side.other).sync.slotsFor revision (clipboardChunkCount bounded))
  else truncateClipboardText (l side.other).clipboard = bounded

end ClipboardLink

/-! ## Slots of texts within the limit -/

/-- Each slot is empty or holds a piece of a text within the limit that is cut into as
many pieces as there are slots. -/
def PartsOfTexts (slots : List Bytes) : Prop :=
  ∀ (i : Nat) (h : i < slots.length), slots[i] = [] ∨
    ∃ text, text.length ≤ kMaxClipboardTextBytes ∧ clipboardChunkCount text = slots.length ∧
      slots[i] = piece kMaxClipboardChunkPayload text i

theorem partsOfTexts_replicate (n : Nat) : PartsOfTexts (List.replicate n []) := by
  intro i h
  exact .inl (List.getElem_replicate h)

theorem PartsOfTexts.set {slots : List Bytes} (h : PartsOfTexts slots) {text : Bytes}
    (hlen : text.length ≤ kMaxClipboardTextBytes) (hcount : clipboardChunkCount text = slots.length)
    (i : Nat) : PartsOfTexts (slots.set i (piece kMaxClipboardChunkPayload text i)) := by
  intro j hj
  rw [List.length_set] at hj
  by_cases hij : i = j
  · subst hij
    right
    refine ⟨text, hlen, ?_, ?_⟩
    · rw [List.length_set]
      exact hcount
    · exact List.getElem_set_self (by rwa [List.length_set])
  · rw [List.getElem_set_ne hij, List.length_set]
    exact h j hj

/-- Full slots make a cut, and together a text within the limit. -/
theorem PartsOfTexts.full {slots : List Bytes} (h : PartsOfTexts slots)
    (hfull : ∀ p ∈ slots, p ≠ []) (hsome : 0 < slots.length) :
    Cut kMaxClipboardChunkPayload slots ∧ slots.flatten ≠ [] ∧
      slots.flatten.length ≤ kMaxClipboardTextBytes := by
  have hc : 0 < kMaxClipboardChunkPayload := by decide
  have hpiece : ∀ (i : Nat) (hi : i < slots.length), ∃ text,
      text.length ≤ kMaxClipboardTextBytes ∧ clipboardChunkCount text = slots.length ∧
        slots[i] = piece kMaxClipboardChunkPayload text i := by
    intro i hi
    rcases h i hi with hempty | htext
    · exact absurd hempty (hfull _ (List.getElem_mem hi))
    · exact htext
  have hcut : Cut kMaxClipboardChunkPayload slots := by
    apply cut_of_getElem
    · intro i hi hnext
      rcases hpiece i hi with ⟨text, -, hcount, heq⟩
      rw [heq]
      apply length_piece_eq hc
      show i + 1 < clipboardChunkCount text
      rwa [hcount]
    · intro p hp
      rcases List.getElem_of_mem hp with ⟨i, hi, rfl⟩
      rcases hpiece i hi with ⟨text, -, -, heq⟩
      refine ⟨hfull _ hp, ?_⟩
      rw [heq]
      exact length_piece_le _ _ _
  have hne : slots ≠ [] := List.length_pos_iff.mp hsome
  have hlength := hcut.length_flatten hne
  -- together the slots are as long as the text of the last one
  rcases hpiece (slots.length - 1) (by omega) with ⟨text, hbound, hcount, heq⟩
  have htext : text ≠ [] := by
    rintro rfl
    have : clipboardChunkCount ([] : Bytes) = 0 := by decide
    omega
  have hlast := length_last_piece hc htext
  have hcount' : count kMaxClipboardChunkPayload text = slots.length := hcount
  rw [hcount', ← heq] at hlast
  rw [List.getLast_eq_getElem] at hlength
  have htotal : slots.flatten.length = text.length := by omega
  have hpos := List.length_pos_iff.mpr htext
  refine ⟨hcut, ?_, by omega⟩
  rw [← List.length_pos_iff, htotal]
  exact hpos

/-! ## What every run keeps -/

namespace ClipboardSync

/-- What holds of the receiving part: the slots are counted, one is empty unless there is
none, and they hold pieces of texts within the limit. -/
structure Collects (s : ClipboardSync) : Prop where
  counted : s.inReceived = filled s.inChunks
  opened : s.inChunks = [] ∨ ∃ p ∈ s.inChunks, p = []
  parts : PartsOfTexts s.inChunks

theorem Collects.slotsFor {s : ClipboardSync} (h : s.Collects) (revision : UInt32) {n : Nat}
    (hn : 0 < n) :
    PartsOfTexts (s.slotsFor revision n) ∧ ∃ p ∈ s.slotsFor revision n, p = [] := by
  unfold ClipboardSync.slotsFor
  split
  · refine ⟨partsOfTexts_replicate n, [], ?_, rfl⟩
    exact List.mem_replicate.mpr ⟨by omega, rfl⟩
  · next hsame =>
    push Not at hsame
    refine ⟨h.parts, ?_⟩
    rcases h.opened with hnone | hopen
    · rw [hnone, List.length_nil] at hsame
      omega
    · exact hopen

theorem collects_hold (s : ClipboardSync) (revision : UInt32) {slots : List Bytes}
    (hopen : ∃ p ∈ slots, p = []) (hparts : PartsOfTexts slots) :
    (s.hold revision slots).Collects :=
  ⟨rfl, .inr hopen, hparts⟩

theorem collects_complete (s : ClipboardSync) (revision : UInt32) (text : Bytes) :
    (s.complete revision text).Collects := by
  refine ⟨rfl, .inl rfl, ?_⟩
  intro i h
  exact absurd h (Nat.not_lt_zero i)

/-- What a chunk of a text within the limit does that is not refused. -/
theorem Collects.accept {s : ClipboardSync} (h : s.Collects) {revision : UInt32} {text : Bytes}
    (hlen : text.length ≤ kMaxClipboardTextBytes) {i : Nat} (hi : i < clipboardChunkCount text)
    (hnew : ¬ s.Refuses revision) :
    let slots := s.slotsFor revision (clipboardChunkCount text)
    let slots' := slots.set i (piece kMaxClipboardChunkPayload text i)
    (slots.getD i [] ≠ [] ∧
        s.accept (clipboardChunk revision text i) = (s.hold revision slots, false)) ∨
      (slots.getD i [] = [] ∧
        (((∃ p ∈ slots', p = []) ∧
            s.accept (clipboardChunk revision text i) = (s.hold revision slots', false)) ∨
          ((∀ p ∈ slots', p ≠ []) ∧
            s.accept (clipboardChunk revision text i) =
              (s.complete revision slots'.flatten, true)))) := by
  intro slots slots'
  rcases clipboardChunk_fields hlen revision hi with ⟨hindex, hcount, hpayload⟩
  have hless : (clipboardChunk revision text i).chunkIndex <
      (clipboardChunk revision text i).chunkCount := by
    rw [UInt16.lt_iff_toNat_lt, hindex, hcount]
    exact hi
  have hspec := accept_spec h.counted hless hpayload hnew
  dsimp only at hspec
  rw [hcount, hindex] at hspec
  rcases hspec with hthere | ⟨hempty, hsome | ⟨hfull, haccept⟩⟩
  · exact .inl hthere
  · exact .inr ⟨hempty, .inl hsome⟩
  · right
    refine ⟨hempty, .inr ⟨hfull, ?_⟩⟩
    have hcount' : clipboardChunkCount text = slots.length := (length_slotsFor _ _ _).symm
    have hparts : PartsOfTexts slots' :=
      (h.slotsFor revision (by omega)).1.set hlen hcount' i
    have hsome : 0 < slots'.length := by
      rw [List.length_set, ← hcount']
      omega
    rcases hparts.full hfull hsome with ⟨-, hne, hbound⟩
    have haccept' : s.accept (clipboardChunk revision text i) =
        if truncateClipboardText slots'.flatten = [] then (s.hold revision slots', false)
        else (s.complete revision (truncateClipboardText slots'.flatten), true) := haccept
    rw [haccept', truncateClipboardText_of_le hbound, if_neg hne]

end ClipboardSync

end Deskhub
