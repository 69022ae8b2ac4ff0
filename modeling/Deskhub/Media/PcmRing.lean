import Deskhub.Lib.Bounded
import Deskhub.Lib.CircularBuffer
import Deskhub.Lib.Machine

/-!
# The PCM ring

`PcmRing`: the samples between a decoder and a playback device, in a ring that forgets the oldest
ones when a block does not fit. It is compared with a bounded queue, call by call.
-/

namespace Deskhub

def kAudioSampleRate : UInt32 := 48000
def kAudioChannels : UInt32 := 2
def kAudioSamplesPerFrame : UInt32 := 960
def kPcmRingFrames : UInt64 := 8

structure AudioFormat where
  sampleRate : UInt32 := kAudioSampleRate
  channels : UInt32 := kAudioChannels
  samplesPerFrame : UInt32 := kAudioSamplesPerFrame
deriving DecidableEq, Repr

def AudioFormat.interleavedSamples (f : AudioFormat) : UInt64 :=
  f.samplesPerFrame.toUInt64 * f.channels.toUInt64

/-- The size `Open` gives the ring. -/
def AudioFormat.ringSize (f : AudioFormat) : Nat := (kPcmRingFrames * f.interleavedSamples).toNat

structure PcmRing where
  ring : List Int16 := []
  samplesPerFrame : UInt64 := 0
  readAt : Nat := 0
  filled : Nat := 0
  dropped : UInt64 := 0
  starved : UInt64 := 0
deriving DecidableEq, Repr

/-- A call, the lock being free. -/
inductive PcmCall where
  | put (pcm : List Int16)
  | take (wanted : Nat)
deriving DecidableEq, Repr

namespace PcmRing

open Bounded CircularBuffer

/-- `Open`: the counters go on. -/
def openRing (s : PcmRing) (format : AudioFormat) : PcmRing :=
  { s with
    samplesPerFrame := format.interleavedSamples
    ring := List.replicate format.ringSize 0
    readAt := 0
    filled := 0 }

/-- The loop of `Take`: the samples it copies, and the place it gets to. No result when a place is
not in the ring. -/
def takeFrom (ring : List Int16) : Nat → Nat → Option (List Int16 × Nat)
  | 0, readAt => some ([], readAt)
  | count + 1, readAt => do
    let sample ← ring[readAt]?
    let (samples, place) ← takeFrom ring count ((readAt + 1) % ring.length)
    return (sample :: samples, place)

def take (s : PcmRing) (wanted : Nat) : Option (PcmRing × List Int16) := do
  let count := min wanted s.filled
  let (samples, readAt) ← takeFrom s.ring count s.readAt
  return ({ s with readAt := readAt, filled := s.filled - count }, samples)

/-- `TakeOrSilence`: what it leaves in a buffer of the size wanted. -/
def takeOrSilence (s : PcmRing) (wanted : Nat) : Option (PcmRing × List Int16) := do
  let (s, samples) ← s.take wanted
  if samples.length < wanted then
    return ({ s with starved := s.starved + 1 },
      samples ++ List.replicate (wanted - samples.length) 0)
  else return (s, samples)

/-- The loop of `Put` that makes room for so many samples. No result when it has not ended after so
many turns. -/
def makeRoom (size : Nat) : Nat → PcmRing → Option PcmRing
  | 0, _ => none
  | turns + 1, s =>
    if s.ring.length - s.filled < size then
      let drop := min size s.filled
      makeRoom size turns
        { s with
          readAt := (s.readAt + drop) % s.ring.length
          filled := s.filled - drop
          dropped := s.dropped + 1 }
    else some s

/-- The loop of `Put` that writes the samples. -/
def writeFrom : Nat → List Int16 → List Int16 → Option (List Int16)
  | _, [], ring => some ring
  | writeAt, sample :: pcm, ring => do
    let ring ← set? ring writeAt sample
    writeFrom ((writeAt + 1) % ring.length) pcm ring

def put (s : PcmRing) (pcm : List Int16) : Option PcmRing :=
  if s.ring = [] ∨ s.ring.length < pcm.length then some s
  else do
    let s ← makeRoom pcm.length (s.filled + 2) s
    let ring ← writeFrom ((s.readAt + s.filled) % s.ring.length) pcm s.ring
    return { s with ring := ring, filled := s.filled + pcm.length }

/-- One call, and what it returns. -/
def call (s : PcmRing) : PcmCall → Option (PcmRing × List (List Int16))
  | .put pcm => (s.put pcm).map fun s => (s, [])
  | .take wanted => (s.take wanted).map fun (s, samples) => (s, [samples])

/-- Calls one at a time, and what they return. -/
def runCalls (s : PcmRing) : List PcmCall → Option (PcmRing × List (List Int16))
  | [] => some (s, [])
  | c :: calls => do
    let (s, out) ← s.call c
    let (s, rest) ← runCalls s calls
    return (s, out ++ rest)

end PcmRing

/-! ## The bounded queue -/

/-- A queue of samples with a bound. -/
structure SampleQueue where
  size : Nat
  samples : List Int16 := []

namespace SampleQueue

/-- A block that fits behind the samples is appended; for another one of at most the bound the
oldest samples go, as many as it has or all; a larger block changes nothing. -/
def put (q : SampleQueue) (pcm : List Int16) : SampleQueue :=
  if q.size < pcm.length then q
  else if q.samples.length + pcm.length ≤ q.size then { q with samples := q.samples ++ pcm }
  else { q with samples := q.samples.drop (min pcm.length q.samples.length) ++ pcm }

/-- The oldest samples, as many as wanted or all, and the others. -/
def take (q : SampleQueue) (wanted : Nat) : SampleQueue × List Int16 :=
  let count := min wanted q.samples.length
  ({ q with samples := q.samples.drop count }, q.samples.take count)

def step (q : SampleQueue) : PcmCall → SampleQueue × List (List Int16)
  | .put pcm => (q.put pcm, [])
  | .take wanted => ((q.take wanted).1, [(q.take wanted).2])

end SampleQueue

def sampleQueue : Machine SampleQueue PcmCall (List Int16) where
  step := SampleQueue.step

theorem SampleQueue.size_put (q : SampleQueue) (pcm : List Int16) : (q.put pcm).size = q.size := by
  unfold put
  split
  · rfl
  · split <;> rfl

/-- The bound stays. -/
theorem SampleQueue.size_run (q : SampleQueue) (calls : List PcmCall) :
    (sampleQueue.run q calls).1.size = q.size := by
  refine Machine.run_invariant' (fun (r : SampleQueue) _ => r.size = q.size) rfl ?_ calls
  intro r _ c hr
  cases c with
  | put pcm => exact (r.size_put pcm).trans hr
  | take wanted => exact hr

namespace PcmRing

open Bounded CircularBuffer

/-- The samples held, the oldest first. -/
def samples (s : PcmRing) : List Int16 := held s.ring s.readAt s.filled

/-- The ring stands for the queue: the reading place is in the ring, and no more is held than it
has room for. -/
structure Stands (s : PcmRing) (q : SampleQueue) : Prop where
  size_eq : s.ring.length = q.size
  samples_eq : s.samples = q.samples
  filled_le : s.filled ≤ s.ring.length
  readAt_eq : s.readAt % s.ring.length = s.readAt

variable {s : PcmRing} {q : SampleQueue}

theorem Stands.filled_eq (h : Stands s q) : s.filled = q.samples.length := by
  rw [← h.samples_eq]
  exact (length_held h.filled_le s.readAt).symm

theorem stands_openRing (s : PcmRing) (format : AudioFormat) :
    Stands (s.openRing format) ⟨format.ringSize, []⟩ where
  size_eq := List.length_replicate
  samples_eq := rfl
  filled_le := Nat.zero_le _
  readAt_eq := Nat.zero_mod _

/-! ## Taking -/

theorem takeFrom_eq {ring : List Int16} {readAt filled count : Nat}
    (hplace : readAt % ring.length = readAt) (hfilled : filled ≤ ring.length)
    (hcount : count ≤ filled) :
    takeFrom ring count readAt =
      some ((held ring readAt filled).take count, (readAt + count) % ring.length) := by
  induction count generalizing readAt filled with
  | zero =>
    rw [takeFrom, List.take_zero, Nat.add_zero, hplace]
  | succ count ih =>
    have hin : readAt < ring.length := by
      rw [← hplace]
      exact Nat.mod_lt _ (by omega)
    have hread : ring[readAt]? = some ring[readAt] := List.getElem?_eq_getElem hin
    obtain ⟨rest, rfl⟩ : ∃ rest, filled = rest + 1 := ⟨filled - 1, by omega⟩
    have hnext := ih (Nat.mod_mod (readAt + 1) ring.length) (by omega : rest ≤ ring.length) (by omega)
    rw [takeFrom, hread, held_succ hread hfilled]
    simp only [Option.bind_eq_bind, Option.bind_some, hnext, Option.pure_def, List.take_succ_cons]
    rw [Nat.mod_add_mod, Nat.add_assoc, Nat.add_comm 1 count]

/-- `Take` hands out the front of the queue. -/
theorem take_stands (h : Stands s q) (wanted : Nat) :
    ∃ s', s.take wanted = some (s', (q.take wanted).2) ∧ Stands s' (q.take wanted).1 := by
  have hcount : min wanted s.filled ≤ s.filled := Nat.min_le_right _ _
  have htaken := takeFrom_eq h.readAt_eq h.filled_le hcount
  refine ⟨{ s with
    readAt := (s.readAt + min wanted s.filled) % s.ring.length
    filled := s.filled - min wanted s.filled }, ?_, ?_⟩
  · have hheld : held s.ring s.readAt s.filled = q.samples := h.samples_eq
    rw [hheld] at htaken
    unfold take SampleQueue.take
    dsimp only
    rw [htaken, ← h.filled_eq]
    rfl
  · constructor
    · exact h.size_eq
    · show held s.ring _ _ = _
      rw [← drop_held hcount h.filled_le]
      show s.samples.drop _ = _
      rw [h.samples_eq, h.filled_eq]
      rfl
    · exact Nat.le_trans (Nat.sub_le _ _) h.filled_le
    · exact Nat.mod_mod _ _

/-- `TakeOrSilence` fills the buffer: the front of the queue, and silence behind it. -/
theorem takeOrSilence_stands (h : Stands s q) (wanted : Nat) :
    ∃ s', s.takeOrSilence wanted = some (s', (q.take wanted).2 ++
        List.replicate (wanted - (q.take wanted).2.length) 0) ∧ Stands s' (q.take wanted).1 := by
  rcases take_stands h wanted with ⟨s', htake, hnext⟩
  unfold takeOrSilence
  rw [htake]
  by_cases hshort : (q.take wanted).2.length < wanted
  · refine ⟨{ s' with starved := s'.starved + 1 }, ?_, ⟨hnext.1, hnext.2, hnext.3, hnext.4⟩⟩
    simp only [Option.bind_eq_bind, Option.bind_some, if_pos hshort]
    rfl
  · refine ⟨s', ?_, hnext⟩
    simp only [Option.bind_eq_bind, Option.bind_some, if_neg hshort]
    rw [Nat.sub_eq_zero_of_le (Nat.not_lt.mp hshort), List.replicate_zero, List.append_nil]
    rfl

/-! ## Putting -/

/-- The samples that make room have gone after one turn of the loop. -/
theorem makeRoom_stands (h : Stands s q) {size : Nat} (hsize : size ≤ q.size) (turns : Nat) :
    ∃ s', makeRoom size (turns + 2) s = some s' ∧
      Stands s' (if q.samples.length + size ≤ q.size then q
        else { q with samples := q.samples.drop (min size q.samples.length) }) ∧
      s'.filled + size ≤ s'.ring.length := by
  have hfilled := h.filled_le
  have hlength := h.size_eq
  rw [← h.filled_eq]
  by_cases hfits : s.filled + size ≤ q.size
  · rw [if_pos hfits]
    refine ⟨s, ?_, h, by omega⟩
    rw [makeRoom, if_neg (by omega)]
  · have hdrop : min size s.filled ≤ s.filled := Nat.min_le_right _ _
    rw [if_neg hfits]
    refine ⟨{ s with
      readAt := (s.readAt + min size s.filled) % s.ring.length
      filled := s.filled - min size s.filled
      dropped := s.dropped + 1 }, ?_, ?_, ?_⟩
    · have hroom : ¬ s.ring.length - (s.filled - min size s.filled) < size := by omega
      rw [makeRoom, if_pos (by omega)]
      dsimp only
      rw [makeRoom, if_neg hroom]
    · constructor
      · exact hlength
      · show held s.ring _ _ = _
        rw [← drop_held hdrop hfilled]
        exact congrArg (List.drop _) h.samples_eq
      · exact Nat.le_trans (Nat.sub_le _ _) hfilled
      · exact Nat.mod_mod _ _
    · show s.filled - min size s.filled + size ≤ s.ring.length
      omega

theorem writeFrom_eq {ring : List Int16} {readAt filled : Nat} (pcm : List Int16)
    (hroom : filled + pcm.length ≤ ring.length) :
    ∃ written, writeFrom ((readAt + filled) % ring.length) pcm ring = some written ∧
      written.length = ring.length ∧
      held written readAt (filled + pcm.length) = held ring readAt filled ++ pcm := by
  induction pcm generalizing ring filled with
  | nil => exact ⟨ring, rfl, rfl, (List.append_nil _).symm⟩
  | cons sample pcm ih =>
    rw [List.length_cons] at hroom
    have hin : (readAt + filled) % ring.length < ring.length := Nat.mod_lt _ (by omega)
    have hlength : (ring.set ((readAt + filled) % ring.length) sample).length = ring.length :=
      List.length_set
    rcases @ih (ring.set ((readAt + filled) % ring.length) sample) (filled + 1) (by omega) with
      ⟨written, hwrite, hsame, hheld⟩
    refine ⟨written, ?_, by rw [hsame, hlength], ?_⟩
    · rw [writeFrom, set?_eq_some hin]
      simp only [Option.bind_eq_bind, Option.bind_some]
      rw [hlength] at hwrite ⊢
      rw [Nat.mod_add_mod, Nat.add_assoc]
      exact hwrite
    · rw [List.length_cons, ← Nat.add_assoc, Nat.add_right_comm, hheld,
        held_set (by omega) readAt sample, List.append_assoc]
      rfl

/-- `Put` appends a block, the oldest samples going first if it does not fit. -/
theorem put_stands (h : Stands s q) (pcm : List Int16) :
    ∃ s', s.put pcm = some s' ∧ Stands s' (q.put pcm) := by
  unfold put SampleQueue.put
  by_cases hlarge : q.size < pcm.length
  · rw [if_pos hlarge, if_pos (.inr (h.size_eq ▸ hlarge))]
    exact ⟨s, rfl, h⟩
  rw [if_neg hlarge]
  by_cases hempty : s.ring = []
  · -- only an empty block gets past the size check of an empty ring
    have hzero : q.size = 0 := by rw [← h.size_eq, hempty]; rfl
    have hnone : pcm = [] := List.eq_nil_of_length_eq_zero (by omega)
    have hheld := h.filled_le
    rw [h.filled_eq, hempty, List.length_nil] at hheld
    rw [if_pos (.inl hempty), hnone, if_pos (by rw [List.length_nil]; omega), List.append_nil]
    exact ⟨s, rfl, h⟩
  · rw [if_neg (by rw [not_or, h.size_eq]; exact ⟨hempty, hlarge⟩)]
    rcases makeRoom_stands h (Nat.not_lt.mp hlarge) s.filled with ⟨s₁, hmade, hs₁, hroom⟩
    rcases @writeFrom_eq _ s₁.readAt _ pcm hroom with ⟨written, hwrite, hlength, hheld⟩
    refine ⟨{ s₁ with ring := written, filled := s₁.filled + pcm.length }, ?_, ?_⟩
    · rw [hmade]
      simp only [Option.bind_eq_bind, Option.bind_some, hwrite]
      rfl
    · have hqueue : Stands { s₁ with ring := written, filled := s₁.filled + pcm.length }
          ⟨q.size, (if q.samples.length + pcm.length ≤ q.size then q
            else { q with samples := q.samples.drop (min pcm.length q.samples.length) }).samples ++
              pcm⟩ := by
        constructor
        · show written.length = q.size
          rw [hlength, hs₁.size_eq]
          split <;> rfl
        · show held written s₁.readAt (s₁.filled + pcm.length) = _
          rw [hheld, ← hs₁.samples_eq]
          rfl
        · show s₁.filled + pcm.length ≤ written.length
          rw [hlength]
          exact hroom
        · show s₁.readAt % written.length = s₁.readAt
          rw [hlength]
          exact hs₁.readAt_eq
      by_cases hfits : q.samples.length + pcm.length ≤ q.size
      · rw [if_pos hfits] at hqueue ⊢
        exact hqueue
      · rw [if_neg hfits] at hqueue ⊢
        exact hqueue

/-! ## Every run -/

/-- One call of the ring is one call of the queue. -/
theorem call_stands (h : Stands s q) (c : PcmCall) :
    ∃ s', s.call c = some (s', (sampleQueue.step q c).2) ∧ Stands s' (sampleQueue.step q c).1 := by
  cases c with
  | put pcm =>
    rcases put_stands h pcm with ⟨s', hput, hnext⟩
    refine ⟨s', ?_, hnext⟩
    rw [call, hput]
    rfl
  | take wanted =>
    rcases take_stands h wanted with ⟨s', htake, hnext⟩
    refine ⟨s', ?_, hnext⟩
    rw [call, htake]
    rfl

theorem runCalls_stands (h : Stands s q) (calls : List PcmCall) :
    ∃ s', s.runCalls calls = some (s', (sampleQueue.run q calls).2) ∧
      Stands s' (sampleQueue.run q calls).1 := by
  induction calls generalizing s q with
  | nil => exact ⟨s, rfl, h⟩
  | cons c calls ih =>
    rcases call_stands h c with ⟨s₁, hcall, hs₁⟩
    rcases ih hs₁ with ⟨s₂, hrest, hs₂⟩
    refine ⟨s₂, ?_, hs₂⟩
    rw [runCalls, hcall]
    simp only [Option.bind_eq_bind, Option.bind_some, hrest]
    rfl

/-- After `Open` the ring is a bounded queue: whatever the format and the calls, they return what
the queue returns, the samples held are those of the queue, and never more than the ring has room
for. -/
theorem pcmRing_queue (s : PcmRing) (format : AudioFormat) (calls : List PcmCall) :
    ∃ s', (s.openRing format).runCalls calls =
        some (s', (sampleQueue.run ⟨format.ringSize, []⟩ calls).2) ∧
      s'.samples = (sampleQueue.run ⟨format.ringSize, []⟩ calls).1.samples ∧
      s'.samples.length = s'.filled ∧ s'.filled ≤ s'.ring.length ∧
      s'.ring.length = format.ringSize := by
  rcases runCalls_stands (stands_openRing s format) calls with ⟨s', hrun, hs'⟩
  have hsize := hs'.size_eq
  rw [SampleQueue.size_run] at hsize
  exact ⟨s', hrun, hs'.samples_eq, length_held hs'.filled_le _, hs'.filled_le, hsize⟩

end PcmRing

end Deskhub
