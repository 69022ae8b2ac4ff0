import Deskhub.Lib.Machine
import Deskhub.Lib.OrdMap
import Deskhub.Lib.SerialNumbers
import Deskhub.Protocol.Wire.Media
import Mathlib.Data.Finset.Card

/-!
# The audio jitter buffer

`AudioJitterBuffer`: frames are held until there are enough to start, and then come out one number
after the other, a missing one as concealment. An empty buffer stops the play-out, and a packet
far from the number that is due starts everything anew.
-/

namespace Deskhub

open OrdMap SerialNumbers

def kAudioFrameMs : Nat := 20
def kMinPrefillFrames : Nat := 1
def kMaxPrefillFrames : Nat := 25
def kBurstDropThreshold : Nat := 3
def kResyncGapFrames : Nat := 100

/-- `AudioJitterBuffer::Frame`. -/
structure AudioFrame where
  seq : UInt32
  timestampUs : UInt64
  concealed : Bool := false
  payload : Bytes := []
  recovery : Bytes := []
deriving DecidableEq, Repr

structure JitterStats where
  framesReceived : Nat := 0
  framesPlayed : Nat := 0
  framesConcealed : Nat := 0
  framesRecoverable : Nat := 0
  framesLate : Nat := 0
  framesDuplicate : Nat := 0
  framesDropped : Nat := 0
  underruns : Nat := 0
  resyncs : Nat := 0
deriving DecidableEq, Repr

structure AudioJitterBuffer where
  held : Map UInt32 AudioFrame := .empty
  prefill : Nat
  nextSeq : UInt32 := 0
  playing : Bool := false
  stats : JitterStats := {}
deriving DecidableEq

/-- What the outside sees: the frames that come out, and that everything started anew. -/
inductive JitterEvent where
  | returned (frame : AudioFrame)
  | cleared
deriving DecidableEq, Repr

namespace AudioJitterBuffer

def create (targetDelayMs : UInt32) : AudioJitterBuffer :=
  let frames := targetDelayMs.toNat / kAudioFrameMs
  { prefill :=
      if frames < kMinPrefillFrames then kMinPrefillFrames
      else if kMaxPrefillFrames < frames then kMaxPrefillFrames else frames }

/-- `Reset`. -/
def reset (s : AudioJitterBuffer) : AudioJitterBuffer :=
  { s with held := .empty, playing := false, nextSeq := 0 }

def tooLate (s : AudioJitterBuffer) (seq : UInt32) : Bool := s.playing && int32 (seq - s.nextSeq) < 0

/-- The packet is so far from the number that is due that it belongs to another stream. -/
def resyncs (s : AudioJitterBuffer) (seq : UInt32) : Bool :=
  let ahead := int32 (seq - s.nextSeq)
  s.playing && (ahead > kResyncGapFrames || ahead < -(kResyncGapFrames : Int))

/-- The loop of `Push` that drops the first frames; the fuel is the number of frames held. -/
def dropBurst : Nat → AudioJitterBuffer → AudioJitterBuffer
  | 0, s => s
  | n + 1, s =>
      if s.held.size > s.prefill + kBurstDropThreshold then
        match s.held.first? with
        | none => s
        | some (first, _) =>
            let held := s.held.erase first
            let next :=
              match held.first? with
              | some (front, _) => if s.playing then front else s.nextSeq
              | none => s.nextSeq
            dropBurst n
              { s with
                held := held
                nextSeq := next
                stats := { s.stats with framesDropped := s.stats.framesDropped + 1 } }
      else s

/-- `Push` with the packet neither empty nor of another stream. -/
def hold (s : AudioJitterBuffer) (pkt : AudioPacketView) : AudioJitterBuffer :=
  if s.tooLate pkt.hdr.seq then { s with stats := { s.stats with framesLate := s.stats.framesLate + 1 } }
  else if s.held.contains pkt.hdr.seq then
    { s with stats := { s.stats with framesDuplicate := s.stats.framesDuplicate + 1 } }
  else
    let held :=
      s.held.insert pkt.hdr.seq
        { seq := pkt.hdr.seq, timestampUs := pkt.hdr.timestampUs, payload := pkt.payload }
    dropBurst held.size { s with held := held }

def push (s : AudioJitterBuffer) (pkt : AudioPacketView) : AudioJitterBuffer × List JitterEvent :=
  if pkt.payload = [] then (s, [])
  else
    let s := { s with stats := { s.stats with framesReceived := s.stats.framesReceived + 1 } }
    if s.resyncs pkt.hdr.seq then
      let s := { s with stats := { s.stats with resyncs := s.stats.resyncs + 1 } }
      (s.reset.hold pkt, [.cleared])
    else (s.hold pkt, [])

/-- The frame that is due, or what conceals it. -/
def due (s : AudioJitterBuffer) : AudioJitterBuffer × Option AudioFrame :=
  match s.held.first? with
  | none =>
      ({ s with playing := false, stats := { s.stats with underruns := s.stats.underruns + 1 } }, none)
  | some (_, first) =>
      match s.held.find? s.nextSeq with
      | none =>
          let following := s.held.find? (s.nextSeq + 1)
          ({ s with
              nextSeq := s.nextSeq + 1
              stats :=
                { s.stats with
                  framesConcealed := s.stats.framesConcealed + 1
                  framesRecoverable := s.stats.framesRecoverable + if following.isSome then 1 else 0 } },
            some
              { seq := s.nextSeq
                timestampUs := first.timestampUs
                concealed := true
                recovery := (following.map AudioFrame.payload).getD [] })
      | some out =>
          ({ s with
              held := s.held.erase s.nextSeq
              nextSeq := s.nextSeq + 1
              stats := { s.stats with framesPlayed := s.stats.framesPlayed + 1 } },
            some out)

def pop (s : AudioJitterBuffer) : AudioJitterBuffer × Option AudioFrame :=
  if s.playing then s.due
  else if s.held.size < s.prefill then (s, none)
  else
    match s.held.first? with
    | none => ({ s with playing := true } : AudioJitterBuffer).due
    | some (first, _) => ({ s with playing := true, nextSeq := first } : AudioJitterBuffer).due

end AudioJitterBuffer

/-- The calls of a player. -/
inductive JitterCall where
  | push (pkt : AudioPacketView)
  | pop
  | reset
deriving DecidableEq

def jitterBuffer : Machine AudioJitterBuffer JitterCall JitterEvent where
  step s
    | .push pkt => s.push pkt
    | .pop =>
        let (s, out) := s.pop
        (s, (out.map .returned).toList)
    | .reset => (s.reset, [.cleared])

end Deskhub

/-!
## Audio frames in order

While frames are played, the ones held are numerically behind the number that is due or have
wrapped and are close, and so the drop of a burst moves that number ahead by no more than the gap
that is still one stream. What came out last is remembered by nothing: once the buffer ran empty,
packets are taken in whose turn has passed, and the play-out starts again with them.
-/

namespace Deskhub

open OrdMap SerialNumbers

/-! ## What is asked of the frames that come out -/

/-- A stretch of frames ascends, and a number comes again only after a whole lap. -/
structure InOrder (frames : List AudioFrame) : Prop where
  ascending : Ascending (frames.map AudioFrame.seq)
  lap : ∀ f mid g, f :: mid ++ [g] <:+: frames → f.seq = g.seq →
    2 ^ 32 ≤ advance ((f :: mid ++ [g]).map AudioFrame.seq)

/-- Every stretch of frames between two fresh starts is in order. -/
def PlaysInOrder (out : List JitterEvent) : Prop :=
  ∀ pre frames post, out = pre ++ frames.map .returned ++ post → InOrder frames

theorem inOrder_of_ascending {frames : List AudioFrame} (h : Ascending (frames.map AudioFrame.seq)) :
    InOrder frames := by
  refine ⟨h, ?_⟩
  intro f mid g hpart hsame
  have hsub : Ascending ((f :: mid ++ [g]).map AudioFrame.seq) := h.infix (hpart.map _)
  have hmap : (f :: mid ++ [g]).map AudioFrame.seq = f.seq :: mid.map AudioFrame.seq ++ [f.seq] := by
    simp [hsame]
  rw [hmap] at hsub ⊢
  exact hsub.lap

namespace JitterEvent

/-- The number of the frame if one came out. -/
def seq? : JitterEvent → Option UInt32
  | .returned frame => some frame.seq
  | .cleared => none

/-- Two frames that come out one after the other are in serial-number order. -/
def Follows (first second : JitterEvent) : Prop :=
  ∀ a, first.seq? = some a → ∀ b, second.seq? = some b → IsAfter b a

end JitterEvent

theorem playsInOrder_of_isChain {out : List JitterEvent} (h : out.IsChain JitterEvent.Follows) :
    PlaysInOrder out := by
  intro pre frames post hsplit
  have hpart : frames.map JitterEvent.returned <:+: out := ⟨pre, post, hsplit.symm⟩
  have hstretch := h.infix hpart
  rw [List.isChain_map] at hstretch
  apply inOrder_of_ascending
  show List.IsChain _ (frames.map AudioFrame.seq)
  rw [List.isChain_map]
  exact hstretch.imp fun f g hfollows => hfollows f.seq rfl g.seq rfl

/-- The number of the last frame that came out, if nothing was cleared since. -/
def lastReturned (out : List JitterEvent) : Option UInt32 := out.getLast?.bind JitterEvent.seq?

@[simp] theorem lastReturned_returned (out : List JitterEvent) (frame : AudioFrame) :
    lastReturned (out ++ [.returned frame]) = some frame.seq := by
  simp [lastReturned, JitterEvent.seq?]

@[simp] theorem lastReturned_cleared (out : List JitterEvent) : lastReturned (out ++ [.cleared]) = none := by
  simp [lastReturned, JitterEvent.seq?]

/-- The next event continues the chain if it follows the last. -/
theorem isChain_concat {out : List JitterEvent} {event : JitterEvent} (h : out.IsChain JitterEvent.Follows)
    (hnext : ∀ l, lastReturned out = some l → ∀ b, event.seq? = some b → IsAfter b l) :
    (out ++ [event]).IsChain JitterEvent.Follows := by
  rw [List.isChain_append]
  refine ⟨h, List.isChain_singleton _, ?_⟩
  intro last hlast second hsecond
  have hevent : event = second := by simpa using hsecond
  rw [← hevent]
  intro a ha b hb
  have hreturned : lastReturned out = some a := by
    unfold lastReturned
    rw [Option.mem_def.mp hlast]
    exact ha
  exact hnext a hreturned b hb

namespace AudioJitterBuffer

variable {s : AudioJitterBuffer}

/-! ## What a call does -/

theorem erase_of_find?_none {held : Map UInt32 AudioFrame} {seq : UInt32} (h : held.find? seq = none) :
    held.erase seq = held := by
  have hentries : (held.erase seq).entries = held.entries := by
    apply List.filter_eq_self.mpr
    intro p hp
    apply decide_eq_true
    intro heq
    exact Map.find?_eq_none.mp h p.2 (heq ▸ hp)
  cases held
  simpa [Map.erase] using hentries

/-- Either nothing is held and the play-out stops, or the number that is due comes out. -/
theorem due_cases (s : AudioJitterBuffer) :
    (s.held.size = 0 ∧ s.due.2 = none ∧ s.due.1.held = s.held ∧ s.due.1.playing = false ∧
        s.due.1.prefill = s.prefill) ∨
      (∃ frame, s.due.2 = some frame ∧
        (frame.concealed = true ∧ frame.seq = s.nextSeq ∨ s.held.find? s.nextSeq = some frame) ∧
        s.due.1.held = s.held.erase s.nextSeq ∧ s.due.1.nextSeq = s.nextSeq + 1 ∧
        s.due.1.playing = s.playing ∧ s.due.1.prefill = s.prefill) := by
  unfold due
  cases hfirst : s.held.first? with
  | none => exact .inl ⟨Map.first?_eq_none.mp hfirst, rfl, rfl, rfl, rfl⟩
  | some p =>
    right
    cases hdue : s.held.find? s.nextSeq with
    | none => exact ⟨_, rfl, .inl ⟨rfl, rfl⟩, (erase_of_find?_none hdue).symm, rfl, rfl, rfl⟩
    | some frame => exact ⟨frame, rfl, .inr rfl, rfl, rfl, rfl, rfl⟩

/-- Either there is nothing to do, or the play-out goes on or starts with the first frame held. -/
theorem pop_cases (hprefill : 0 < s.prefill) :
    s.pop = (s, none) ∨
      (s.playing = true ∧ s.pop = s.due) ∨
      (s.playing = false ∧ ∃ p, s.held.first? = some p ∧
        s.pop = ({ s with playing := true, nextSeq := p.1 } : AudioJitterBuffer).due) := by
  unfold pop
  by_cases hplaying : s.playing = true
  · rw [if_pos hplaying]
    exact .inr (.inl ⟨hplaying, rfl⟩)
  · rw [if_neg hplaying]
    by_cases hwaits : s.held.size < s.prefill
    · rw [if_pos hwaits]
      exact .inl rfl
    · rw [if_neg hwaits]
      right
      right
      refine ⟨Bool.eq_false_iff.mpr hplaying, ?_⟩
      cases hfirst : s.held.first? with
      | none =>
        have hnone := Map.first?_eq_none.mp hfirst
        omega
      | some p => exact ⟨p, rfl, rfl⟩

/-- The state after the drop of the first frame. -/
def afterDrop (s : AudioJitterBuffer) (first front : UInt32) : AudioJitterBuffer :=
  { s with
    held := s.held.erase first
    nextSeq := if s.playing then front else s.nextSeq
    stats := { s.stats with framesDropped := s.stats.framesDropped + 1 } }

/-- With no more than one frame too many, no more than one is dropped. -/
theorem dropBurst_cases {n : Nat} (hn : 0 < n) (hsize : s.held.size ≤ s.prefill + kBurstDropThreshold + 1) :
    (s.held.size ≤ s.prefill + kBurstDropThreshold ∧ dropBurst n s = s) ∨
      (s.held.size = s.prefill + kBurstDropThreshold + 1 ∧ ∃ first front, s.held.first? = some first ∧
        (s.held.erase first.1).first? = some front ∧ dropBurst n s = s.afterDrop first.1 front.1) := by
  have hstop : ∀ (m : Nat) (r : AudioJitterBuffer), r.held.size ≤ r.prefill + kBurstDropThreshold →
      dropBurst m r = r := by
    intro m r hr
    cases m with
    | zero => rfl
    | succ m => exact if_neg (Nat.not_lt.mpr hr)
  by_cases hle : s.held.size ≤ s.prefill + kBurstDropThreshold
  · exact .inl ⟨hle, hstop n s hle⟩
  · right
    obtain ⟨m, rfl⟩ := Nat.exists_eq_add_of_lt hn
    cases hfirst : s.held.first? with
    | none =>
      have hnone := Map.first?_eq_none.mp hfirst
      omega
    | some first =>
      have herased := Map.size_erase_first hfirst
      cases hfront : (s.held.erase first.1).first? with
      | none =>
        have hnone := Map.first?_eq_none.mp hfront
        have hthreshold : kBurstDropThreshold = 3 := rfl
        omega
      | some front =>
        refine ⟨by omega, first, front, rfl, hfront, ?_⟩
        have hunfold : dropBurst (0 + m + 1) s = dropBurst (0 + m) (s.afterDrop first.1 front.1) := by
          rw [dropBurst, if_pos (Nat.not_le.mp hle), hfirst]
          dsimp only
          rw [hfront]
          rfl
        rw [hunfold]
        apply hstop
        show (s.held.erase first.1).size ≤ s.prefill + kBurstDropThreshold
        omega

/-- The frame a packet is held as. -/
def frameOf (pkt : AudioPacketView) : AudioFrame :=
  { seq := pkt.hdr.seq, timestampUs := pkt.hdr.timestampUs, payload := pkt.payload }

/-- The state with the frame among those held. -/
def withFrame (s : AudioJitterBuffer) (pkt : AudioPacketView) : AudioJitterBuffer :=
  { s with held := s.held.insert pkt.hdr.seq (frameOf pkt) }

/-- Either only a counter changes, or the frame is held and a burst may be dropped. -/
theorem hold_cases (s : AudioJitterBuffer) (pkt : AudioPacketView) :
    (∃ stats, s.hold pkt = { s with stats := stats }) ∨
      (s.tooLate pkt.hdr.seq = false ∧ s.hold pkt = dropBurst (s.withFrame pkt).held.size (s.withFrame pkt)) := by
  unfold hold
  by_cases hlate : s.tooLate pkt.hdr.seq = true
  · rw [if_pos hlate]
    exact .inl ⟨_, rfl⟩
  · rw [if_neg hlate]
    by_cases hheld : s.held.contains pkt.hdr.seq = true
    · rw [if_pos hheld]
      exact .inl ⟨_, rfl⟩
    · rw [if_neg hheld]
      exact .inr ⟨Bool.eq_false_iff.mpr hlate, rfl⟩

/-- Either the packet is empty, or it is of another stream, which starts everything anew, or it
may be held. -/
theorem push_cases (s : AudioJitterBuffer) (pkt : AudioPacketView) :
    (pkt.payload = [] ∧ s.push pkt = (s, [])) ∨
      (pkt.payload ≠ [] ∧ s.resyncs pkt.hdr.seq = true ∧
        ∃ stats, s.push pkt = (({ s.reset with stats := stats } : AudioJitterBuffer).hold pkt, [.cleared])) ∨
      (pkt.payload ≠ [] ∧ s.resyncs pkt.hdr.seq = false ∧
        ∃ stats, s.push pkt = (({ s with stats := stats } : AudioJitterBuffer).hold pkt, [])) := by
  unfold push
  by_cases hempty : pkt.payload = []
  · rw [if_pos hempty]
    exact .inl ⟨hempty, rfl⟩
  · rw [if_neg hempty]
    right
    by_cases hstream : s.resyncs pkt.hdr.seq = true
    · exact .inl ⟨hempty, hstream, _, if_pos hstream⟩
    · exact .inr ⟨hempty, Bool.eq_false_iff.mpr hstream, _, if_neg hstream⟩

/-! ## The frames held and the number that is due -/

/-- The numbers of the frames held. -/
def keys (s : AudioJitterBuffer) : Finset UInt32 := (s.held.entries.map Prod.fst).toFinset

theorem mem_keys {k : UInt32} : k ∈ s.keys ↔ ∃ frame, (k, frame) ∈ s.held.entries := by
  simp [keys]

theorem card_keys (s : AudioJitterBuffer) : s.keys.card = s.held.size := by
  have hnodup : (s.held.entries.map Prod.fst).Nodup := by
    apply List.pairwise_map.mpr
    exact s.held.sorted.imp fun hlt => ne_of_lt hlt
  rw [keys, List.toFinset_card_of_nodup hnodup, List.length_map]
  rfl

/-- The frames held that are too far ahead to have come in while the number that is due was. -/
def far (s : AudioJitterBuffer) : Finset UInt32 :=
  s.keys.filter fun k => kResyncGapFrames < (k - s.nextSeq).toNat

theorem mem_far {k : UInt32} : k ∈ s.far ↔ k ∈ s.keys ∧ kResyncGapFrames < (k - s.nextSeq).toNat :=
  Finset.mem_filter

/-- Where the frames held are, with `last` the number that came out last. -/
structure InTurn (s : AudioJitterBuffer) (last : Option UInt32) : Prop where
  prefill : 0 < s.prefill
  keyed : ∀ p ∈ s.held.entries, p.2.seq = p.1
  near : s.playing = true → ∀ k ∈ s.keys, s.nextSeq ≤ k ∨ (k - s.nextSeq).toNat ≤ kResyncGapFrames
  few : s.playing = true → s.far.card < s.prefill + kBurstDropThreshold
  following : s.playing = true → ∀ l, last = some l → IsAfter s.nextSeq l
  waiting : s.playing = false → ∀ l, last = some l → ∀ k ∈ s.keys, IsAfter k l

/-- The play-out is at the first frame held: all are numerically behind it. -/
theorem inTurn_atFirst {p : UInt32 × AudioFrame} {last : Option UInt32} (hprefill : 0 < s.prefill)
    (hkeyed : ∀ p ∈ s.held.entries, p.2.seq = p.1) (hplaying : s.playing = true)
    (hfirst : s.held.first? = some p) (hdue : s.nextSeq = p.1)
    (hsize : s.held.size ≤ s.prefill + kBurstDropThreshold)
    (hafter : ∀ l, last = some l → IsAfter p.1 l) : s.InTurn last where
  prefill := hprefill
  keyed := hkeyed
  near := by
    intro _ k hk
    obtain ⟨frame, hframe⟩ := mem_keys.mp hk
    rw [hdue]
    exact .inl (Map.first?_le hfirst hframe)
  few := by
    intro _
    have hmem : p.1 ∈ s.keys := mem_keys.mpr ⟨p.2, Map.first?_mem hfirst⟩
    -- the frame that is due is not far from itself
    have hsubset : s.far ⊆ s.keys.erase p.1 := by
      intro k hk
      obtain ⟨hkey, hgap⟩ := mem_far.mp hk
      apply Finset.mem_erase.mpr
      refine ⟨?_, hkey⟩
      rintro rfl
      rw [hdue, UInt32.sub_self] at hgap
      exact absurd hgap (Nat.not_lt_zero _)
    have hcard := Finset.card_le_card hsubset
    rw [Finset.card_erase_of_mem hmem, card_keys] at hcard
    have hpos : 0 < s.keys.card := Finset.card_pos.mpr ⟨p.1, hmem⟩
    rw [card_keys] at hpos
    omega
  following := by
    intro _ l hl
    rw [hdue]
    exact hafter l hl
  waiting := by
    intro hstopped
    rw [hplaying] at hstopped
    contradiction

variable {last : Option UInt32}

/-- Nothing is played: the frames held must only be behind what came out last. -/
theorem inTurn_stopped (hprefill : 0 < s.prefill) (hkeyed : ∀ p ∈ s.held.entries, p.2.seq = p.1)
    (hstopped : s.playing = false) (hwaiting : ∀ l, last = some l → ∀ k ∈ s.keys, IsAfter k l) :
    s.InTurn last := by
  refine ⟨hprefill, hkeyed, ?_, ?_, ?_, fun _ => hwaiting⟩ <;> intro hplays <;> rw [hstopped] at hplays <;>
    contradiction

/-- What counts is where the frames are. -/
theorem InTurn.withStats (h : s.InTurn last) (stats : JitterStats) :
    ({ s with stats := stats } : AudioJitterBuffer).InTurn last :=
  ⟨h.prefill, h.keyed, h.near, h.few, h.following, h.waiting⟩

/-- A frame that is not too late and not of another stream is near the number that is due. -/
theorem near_of_hold {seq : UInt32} (hplaying : s.playing = true) (hlate : s.tooLate seq = false)
    (hstream : s.resyncs seq = false) : (seq - s.nextSeq).toNat ≤ kResyncGapFrames := by
  have hlow : ¬int32 (seq - s.nextSeq) < 0 := by simpa [tooLate, hplaying] using hlate
  have hhigh : int32 (seq - s.nextSeq) ≤ kResyncGapFrames := by
    have hboth : int32 (seq - s.nextSeq) ≤ (kResyncGapFrames : Int) ∧
        -(kResyncGapFrames : Int) ≤ int32 (seq - s.nextSeq) := by
      simpa [resyncs, hplaying] using hstream
    exact hboth.1
  have hsize := (seq - s.nextSeq).toNat_lt
  unfold int32 at hlow hhigh
  split at hlow
  · rw [if_pos ‹_›] at hhigh
    exact Int.ofNat_le.mp hhigh
  · omega

theorem mem_keys_withFrame {pkt : AudioPacketView} {k : UInt32} (h : k ∈ (s.withFrame pkt).keys) :
    k = pkt.hdr.seq ∨ k ∈ s.keys := by
  obtain ⟨frame, hframe⟩ := mem_keys.mp h
  rcases Map.mem_insert.mp hframe with ⟨rfl, -⟩ | ⟨-, hold⟩
  · exact .inl rfl
  · exact .inr (mem_keys.mpr ⟨frame, hold⟩)

/-- A frame near the number that is due, or behind what came out last, may be held. -/
theorem InTurn.withFrame {pkt : AudioPacketView} (h : s.InTurn last)
    (hnear : s.playing = true → (pkt.hdr.seq - s.nextSeq).toNat ≤ kResyncGapFrames)
    (hafter : s.playing = false → ∀ l, last = some l → IsAfter pkt.hdr.seq l) :
    (s.withFrame pkt).InTurn last where
  prefill := h.prefill
  keyed := by
    intro p hp
    rcases Map.mem_insert.mp hp with ⟨hkey, hframe⟩ | ⟨-, hold⟩
    · rw [hkey, hframe]
      rfl
    · exact h.keyed p hold
  near := by
    intro hplaying k hk
    rcases mem_keys_withFrame hk with rfl | hold
    · exact .inr (hnear hplaying)
    · exact h.near hplaying k hold
  few := by
    intro hplaying
    have hsubset : (s.withFrame pkt).far ⊆ s.far := by
      intro k hk
      obtain ⟨hkey, hgap⟩ := mem_far.mp hk
      rcases mem_keys_withFrame hkey with rfl | hold
      · exact absurd (hnear hplaying) (Nat.not_le.mpr hgap)
      · exact mem_far.mpr ⟨hold, hgap⟩
    exact Nat.lt_of_le_of_lt (Finset.card_le_card hsubset) (h.few hplaying)
  following := h.following
  waiting := by
    intro hstopped l hl k hk
    rcases mem_keys_withFrame hk with rfl | hold
    · exact hafter hstopped l hl
    · exact h.waiting hstopped l hl k hold

theorem mem_keys_afterDrop {first front k : UInt32} (h : k ∈ (s.afterDrop first front).keys) : k ∈ s.keys := by
  obtain ⟨frame, hframe⟩ := mem_keys.mp h
  exact mem_keys.mpr ⟨frame, (Map.mem_erase.mp hframe).2⟩

/-- The first of the frames left is near the number that is due: only frames from before the
play-out are far, and there are not enough of them. -/
theorem InTurn.front_near {first front : UInt32 × AudioFrame} (h : s.InTurn last) (hplaying : s.playing = true)
    (hsize : s.held.size = s.prefill + kBurstDropThreshold + 1) (hfirst : s.held.first? = some first)
    (hfront : (s.held.erase first.1).first? = some front) :
    (front.1 - s.nextSeq).toNat ≤ kResyncGapFrames := by
  have hleft : s.far.card < (s.afterDrop first.1 front.1).keys.card := by
    have herased := Map.size_erase_first hfirst
    have hfew := h.few hplaying
    rw [card_keys]
    show s.far.card < (s.held.erase first.1).size
    omega
  obtain ⟨e, he, hnotFar⟩ := Finset.exists_mem_notMem_of_card_lt_card hleft
  have hnear : (e - s.nextSeq).toNat ≤ kResyncGapFrames := by
    by_contra hgap
    exact hnotFar (mem_far.mpr ⟨mem_keys_afterDrop he, Nat.not_le.mp hgap⟩)
  have hle : front.1 ≤ e := by
    obtain ⟨frame, hframe⟩ := mem_keys.mp he
    exact Map.first?_le hfront hframe
  have hkept : front.1 ∈ (s.afterDrop first.1 front.1).keys := mem_keys.mpr ⟨front.2, Map.first?_mem hfront⟩
  have hkey := mem_keys_afterDrop hkept
  rcases h.near hplaying front.1 hkey with hbehind | hwrapped
  · -- the number that is due, the front and the near frame stand in this order
    have hfrontLe := UInt32.le_iff_toNat_le.mp hle
    rw [toNat_sub_of_le (UInt32.le_trans hbehind hle)] at hnear
    rw [toNat_sub_of_le hbehind]
    omega
  · exact hwrapped

/-- The drop of a burst, as long as the number that is due is not carried half a lap ahead. -/
theorem InTurn.afterDrop {first front : UInt32 × AudioFrame} (h : s.InTurn last)
    (hsize : s.held.size = s.prefill + kBurstDropThreshold + 1) (hfirst : s.held.first? = some first)
    (hfront : (s.held.erase first.1).first? = some front)
    (hahead : s.playing = true → ∀ l, last = some l →
      (s.nextSeq - l).toNat + kResyncGapFrames < 2 ^ 31) :
    (s.afterDrop first.1 front.1).InTurn last := by
  have hkeyed : ∀ p ∈ (s.afterDrop first.1 front.1).held.entries, p.2.seq = p.1 := by
    rintro ⟨k, frame⟩ hp
    exact h.keyed (k, frame) (Map.mem_erase.mp hp).2
  cases hplaying : s.playing with
  | true =>
    have hdue : (s.afterDrop first.1 front.1).nextSeq = front.1 := if_pos hplaying
    have hnear := h.front_near hplaying hsize hfirst hfront
    refine inTurn_atFirst h.prefill hkeyed hplaying hfront hdue ?_ ?_
    · have herased := Map.size_erase_first hfirst
      show (s.held.erase first.1).size ≤ s.prefill + kBurstDropThreshold
      omega
    · intro l hl
      have hbound := hahead hplaying l hl
      have hpos := (isAfter_iff.mp (h.following hplaying l hl)).1
      have hsum : (front.1 - l).toNat = (front.1 - s.nextSeq).toNat + (s.nextSeq - l).toNat :=
        toNat_sub_add (by omega)
      rw [isAfter_iff]
      omega
  | false =>
    have hstopped : (s.afterDrop first.1 front.1).playing = false := hplaying
    apply inTurn_stopped (s := s.afterDrop first.1 front.1) h.prefill hkeyed hstopped
    intro l hl k hk
    exact h.waiting hplaying l hl k (mem_keys_afterDrop hk)

/-! ## Calls -/

/-- What is asked of a packet that is taken in. -/
def TakenInTurn (s : AudioJitterBuffer) (last : Option UInt32) (seq : UInt32) : Prop :=
  ∀ l, last = some l →
    if s.playing then (s.nextSeq - l).toNat + kResyncGapFrames < 2 ^ 31 else IsAfter seq l

instance (s : AudioJitterBuffer) (last : Option UInt32) (seq : UInt32) : Decidable (s.TakenInTurn last seq) :=
  match last with
  | none => .isTrue fun _ hl => nomatch hl
  | some l =>
      decidable_of_iff
        (if s.playing then (s.nextSeq - l).toNat + kResyncGapFrames < 2 ^ 31 else IsAfter seq l)
        ⟨fun h _ hl => Option.some.inj hl ▸ h, fun h => h l rfl⟩

theorem InTurn.hold (h : s.InTurn last) (pkt : AudioPacketView)
    (hbound : s.held.size ≤ s.prefill + kBurstDropThreshold) (hstream : s.resyncs pkt.hdr.seq = false)
    (htaken : s.TakenInTurn last pkt.hdr.seq) :
    (s.hold pkt).InTurn last ∧ (s.hold pkt).held.size ≤ (s.hold pkt).prefill + kBurstDropThreshold := by
  rcases hold_cases s pkt with ⟨stats, hsame⟩ | ⟨hlate, hheld⟩
  · rw [hsame]
    exact ⟨h.withStats stats, hbound⟩
  · have hwith : (s.withFrame pkt).InTurn last := by
      apply h.withFrame
      · intro hplaying
        exact near_of_hold hplaying hlate hstream
      · intro hstopped l hl
        simpa [hstopped] using htaken l hl
    have hsize : (s.withFrame pkt).held.size ≤ (s.withFrame pkt).prefill + kBurstDropThreshold + 1 :=
      Nat.le_trans (Map.size_insert_le _ _ _) (Nat.add_le_add_right hbound 1)
    have hpos : 0 < (s.withFrame pkt).held.size := by
      apply Nat.pos_of_ne_zero
      intro hzero
      have hfind : (s.withFrame pkt).held.find? pkt.hdr.seq = some (frameOf pkt) := Map.find?_insert_self _ _ _
      have hmem := Map.find?_eq_some.mp hfind
      rw [List.length_eq_zero_iff.mp hzero] at hmem
      contradiction
    rw [hheld]
    rcases dropBurst_cases hpos hsize with ⟨hfits, hsame⟩ | ⟨hfull, first, front, hfirst, hfront, hdrop⟩
    · rw [hsame]
      exact ⟨hwith, hfits⟩
    · rw [hdrop]
      refine ⟨hwith.afterDrop hfull hfirst hfront ?_, ?_⟩
      · intro hplaying l hl
        have hplays : s.playing = true := hplaying
        have hgap : (s.nextSeq - l).toNat + kResyncGapFrames < 2 ^ 31 := by
          simpa [hplays] using htaken l hl
        exact hgap
      · have herased := Map.size_erase_first hfirst
        show ((s.withFrame pkt).held.erase first.1).size ≤ (s.withFrame pkt).prefill + kBurstDropThreshold
        omega

/-- Nothing is held: any number may come. -/
theorem inTurn_reset (h : s.InTurn last) : s.reset.InTurn none := by
  refine inTurn_stopped h.prefill ?_ rfl ?_
  · intro p hp
    contradiction
  · intro l hl
    contradiction

/-- The number that is due comes out, and the one behind it is due. -/
theorem InTurn.due (h : s.InTurn last) (hplaying : s.playing = true) :
    (s.due.2 = none ∧ s.due.1.InTurn last) ∨
      (∃ frame, s.due.2 = some frame ∧ frame.seq = s.nextSeq ∧ s.due.1.InTurn (some s.nextSeq)) := by
  rcases due_cases s with ⟨hempty, hout, hheld, hstopped, hprefill⟩ | ⟨frame, hout, hframe, hheld, hnext, hplays, hprefill⟩
  · -- an empty buffer: what comes next is taken in whatever its number
    have hentries : s.due.1.held.entries = [] := by
      rw [hheld]
      exact List.length_eq_zero_iff.mp hempty
    left
    refine ⟨hout, inTurn_stopped ?_ ?_ hstopped ?_⟩
    · rw [hprefill]
      exact h.prefill
    · intro p hp
      rw [hentries] at hp
      contradiction
    · intro l _ k hk
      obtain ⟨frame, hmem⟩ := mem_keys.mp hk
      rw [hentries] at hmem
      contradiction
  · right
    have hseq : frame.seq = s.nextSeq := by
      rcases hframe with ⟨-, hseq⟩ | hfind
      · exact hseq
      · exact h.keyed (s.nextSeq, frame) (Map.find?_eq_some.mp hfind)
    have hkeys : ∀ k ∈ s.due.1.keys, k ≠ s.nextSeq ∧ k ∈ s.keys := by
      intro k hk
      obtain ⟨f, hf⟩ := mem_keys.mp hk
      rw [hheld] at hf
      exact ⟨(Map.mem_erase.mp hf).1, mem_keys.mpr ⟨f, (Map.mem_erase.mp hf).2⟩⟩
    refine ⟨frame, hout, hseq, ?_, ?_, ?_, ?_, ?_, ?_⟩
    · rw [hprefill]
      exact h.prefill
    · rintro ⟨k, f⟩ hp
      rw [hheld] at hp
      exact h.keyed (k, f) (Map.mem_erase.mp hp).2
    · intro _ k hk
      obtain ⟨hne, hkey⟩ := hkeys k hk
      have hcloser := toNat_sub_next hne
      rw [hnext]
      rcases h.near hplaying k hkey with hbehind | hwrapped
      · left
        have hle := UInt32.le_iff_toNat_le.mp hbehind
        have hneNat : k.toNat ≠ s.nextSeq.toNat := fun heq => hne (UInt32.toNat_inj.mp heq)
        have hsize := k.toNat_lt
        rw [UInt32.le_iff_toNat_le, UInt32.toNat_add]
        have hone : (1 : UInt32).toNat = 1 := rfl
        omega
      · right
        omega
    · intro _
      have hsubset : s.due.1.far ⊆ s.far := by
        intro k hk
        obtain ⟨hkey, hgap⟩ := mem_far.mp hk
        obtain ⟨hne, hold⟩ := hkeys k hkey
        have hcloser := toNat_sub_next hne
        rw [hnext] at hgap
        exact mem_far.mpr ⟨hold, by omega⟩
      rw [hprefill]
      exact Nat.lt_of_le_of_lt (Finset.card_le_card hsubset) (h.few hplaying)
    · intro _ l hl
      rw [hnext, ← Option.some.inj hl]
      exact isAfter_next s.nextSeq
    · intro hstopped
      rw [hplays, hplaying] at hstopped
      contradiction

/-- Nothing comes out, or a number behind the last one. -/
theorem InTurn.pop (h : s.InTurn last) (hbound : s.held.size ≤ s.prefill + kBurstDropThreshold) :
    (s.pop.2 = none ∧ s.pop.1.InTurn last) ∨
      (∃ frame, s.pop.2 = some frame ∧ (∀ l, last = some l → IsAfter frame.seq l) ∧
        s.pop.1.InTurn (some frame.seq)) := by
  rcases pop_cases h.prefill with hsame | ⟨hplaying, hdue⟩ | ⟨hstopped, p, hfirst, hdue⟩
  · rw [hsame]
    exact .inl ⟨rfl, h⟩
  · rw [hdue]
    rcases h.due hplaying with hnone | ⟨frame, hout, hseq, hturn⟩
    · exact .inl hnone
    · refine .inr ⟨frame, hout, ?_, ?_⟩
      · rw [hseq]
        exact h.following hplaying
      · rw [hseq]
        exact hturn
  · -- the play-out starts with the first frame held
    have hstart : ({ s with playing := true, nextSeq := p.1 } : AudioJitterBuffer).InTurn last := by
      refine inTurn_atFirst h.prefill h.keyed rfl hfirst rfl hbound ?_
      intro l hl
      exact h.waiting hstopped l hl p.1 (mem_keys.mpr ⟨p.2, Map.first?_mem hfirst⟩)
    rw [hdue]
    rcases hstart.due rfl with hnone | ⟨frame, hout, hseq, hturn⟩
    · exact .inl hnone
    · refine .inr ⟨frame, hout, ?_, ?_⟩
      · rw [hseq]
        exact hstart.following rfl
      · rw [hseq]
        exact hturn

/-- No call lets too many frames be held. -/
theorem bound_due (hbound : s.held.size ≤ s.prefill + kBurstDropThreshold) :
    s.due.1.held.size ≤ s.due.1.prefill + kBurstDropThreshold := by
  rcases due_cases s with ⟨-, -, hheld, -, hprefill⟩ | ⟨_, -, -, hheld, -, -, hprefill⟩
  · rw [hheld, hprefill]
    exact hbound
  · rw [hheld, hprefill]
    exact Nat.le_trans (Map.size_erase_le _ _) hbound

theorem bound_pop (hprefill : 0 < s.prefill) (hbound : s.held.size ≤ s.prefill + kBurstDropThreshold) :
    s.pop.1.held.size ≤ s.pop.1.prefill + kBurstDropThreshold := by
  rcases pop_cases hprefill with hsame | ⟨-, hdue⟩ | ⟨-, p, -, hdue⟩
  · rw [hsame]
    exact hbound
  · rw [hdue]
    exact bound_due hbound
  · rw [hdue]
    exact bound_due (s := { s with playing := true, nextSeq := p.1 }) hbound

/-! ## Runs -/

/-- No packet is taken in after its turn, and the drops of bursts do not carry the number that is
due half a lap past the last one that came out. -/
def ComesInTurn (s : AudioJitterBuffer) (out : List JitterEvent) : JitterCall → Prop
  | .push pkt => pkt.payload ≠ [] → s.resyncs pkt.hdr.seq = false → s.TakenInTurn (lastReturned out) pkt.hdr.seq
  | _ => True

instance (s : AudioJitterBuffer) (out : List JitterEvent) : (call : JitterCall) → Decidable (s.ComesInTurn out call)
  | .push _ => inferInstanceAs (Decidable (_ → _ → _))
  | .pop => .isTrue trivial
  | .reset => .isTrue trivial

/-- What holds after every call. -/
structure Orderly (s : AudioJitterBuffer) (out : List JitterEvent) : Prop where
  turn : s.InTurn (lastReturned out)
  bound : s.held.size ≤ s.prefill + kBurstDropThreshold
  chain : out.IsChain JitterEvent.Follows

theorem orderly_create (targetDelayMs : UInt32) : (create targetDelayMs).Orderly [] := by
  have hprefill : 0 < (create targetDelayMs).prefill := by
    show 0 < if targetDelayMs.toNat / kAudioFrameMs < kMinPrefillFrames then kMinPrefillFrames
      else if kMaxPrefillFrames < targetDelayMs.toNat / kAudioFrameMs then kMaxPrefillFrames
      else targetDelayMs.toNat / kAudioFrameMs
    have hmin : kMinPrefillFrames = 1 := rfl
    have hmax : kMaxPrefillFrames = 25 := rfl
    split
    · omega
    · split <;> omega
  refine ⟨inTurn_stopped hprefill ?_ rfl ?_, Nat.zero_le _, .nil⟩
  · intro p hp
    contradiction
  · intro l hl
    contradiction

variable {out : List JitterEvent}

theorem Orderly.cleared (h : s.Orderly out) : s.reset.Orderly (out ++ [.cleared]) := by
  refine ⟨?_, Nat.zero_le _, ?_⟩
  · rw [lastReturned_cleared]
    exact inTurn_reset h.turn
  · apply isChain_concat h.chain
    intro l _ b hb
    contradiction

theorem Orderly.push {pkt : AudioPacketView} (h : s.Orderly out) (hmeets : s.ComesInTurn out (.push pkt)) :
    (s.push pkt).1.Orderly (out ++ (s.push pkt).2) := by
  rcases push_cases s pkt with ⟨-, hpush⟩ | ⟨-, -, stats, hpush⟩ | ⟨hpayload, hstream, stats, hpush⟩
  · rw [hpush, List.append_nil]
    exact h
  · -- everything starts anew, and the packet is the first of its stream
    rw [hpush]
    have hfresh := h.cleared
    have hturn := (hfresh.turn.withStats stats).hold pkt hfresh.bound rfl (by
      intro l hl
      rw [lastReturned_cleared] at hl
      contradiction)
    exact ⟨hturn.1, hturn.2, hfresh.chain⟩
  · rw [hpush, List.append_nil]
    have hturn := (h.turn.withStats stats).hold pkt h.bound hstream (hmeets hpayload hstream)
    exact ⟨hturn.1, hturn.2, h.chain⟩

theorem Orderly.pop (h : s.Orderly out) : s.pop.1.Orderly (out ++ (s.pop.2.map JitterEvent.returned).toList) := by
  have hbound := bound_pop h.turn.prefill h.bound
  rcases h.turn.pop h.bound with ⟨hnone, hturn⟩ | ⟨frame, hout, hafter, hturn⟩
  · rw [hnone]
    exact ⟨by simpa using hturn, hbound, by simpa using h.chain⟩
  · rw [hout]
    refine ⟨?_, hbound, ?_⟩
    · show s.pop.1.InTurn (lastReturned (out ++ [.returned frame]))
      rw [lastReturned_returned]
      exact hturn
    · apply isChain_concat h.chain
      intro l hl b hb
      rw [← Option.some.inj hb]
      exact hafter l hl

theorem Orderly.step (h : s.Orderly out) {call : JitterCall} (hmeets : s.ComesInTurn out call) :
    (jitterBuffer.step s call).1.Orderly (out ++ (jitterBuffer.step s call).2) := by
  cases call with
  | push pkt => exact h.push hmeets
  | pop => exact h.pop
  | reset => exact h.cleared

theorem orderly_run (targetDelayMs : UInt32) (calls : List JitterCall)
    (hmeets : jitterBuffer.Along ComesInTurn (create targetDelayMs) calls) :
    (jitterBuffer.run (create targetDelayMs) calls).1.Orderly (jitterBuffer.run (create targetDelayMs) calls).2 :=
  Machine.run_invariant Orderly ComesInTurn (orderly_create targetDelayMs)
    (fun _ _ _ hmeets h => h.step hmeets) calls hmeets

end AudioJitterBuffer

end Deskhub
