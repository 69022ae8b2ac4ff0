import Deskhub.Lib.Machine
import Deskhub.Protocol.Wire.Media
import Deskhub.Lib.OrdMap

/-!
# The retransmit cache

`RetransmitCache`: the datagrams of the last frames that were sent, in slots that are used
again in turn. A slot keeps a length for each packet of its frame, and the bytes of all of
them in one vector, `kMaxDatagram` apart.
-/

namespace Deskhub

def kCacheFrames : Nat := 8

/-- `vector::resize`. -/
def resizeVector {α : Type} (xs : List α) (n : Nat) (fill : α) : List α :=
  xs.take n ++ List.replicate (n - xs.length) fill

/-- `std::copy` to an offset. -/
def copyTo {α : Type} (xs : List α) (offset : Nat) (ys : List α) : List α :=
  xs.take offset ++ ys ++ xs.drop (offset + ys.length)

/-- `RetransmitCache::FrameSlot`. -/
structure FrameSlot where
  frameId : UInt32 := 0
  used : Bool := false
  bytes : Bytes := []
  lengths : List UInt16 := []
deriving DecidableEq, Repr

structure RetransmitCache where
  slots : List FrameSlot := List.replicate kCacheFrames {}
  next : Nat := 0
deriving DecidableEq, Repr

/-- The packet a datagram is stored as. -/
def storedPacket? (datagram : Bytes) : Option VideoHeader :=
  if kMaxDatagram < datagram.length then none
  else
    match parseCommonHeader datagram with
    | none => none
    | some h =>
        if h.type ≠ .videoPacket then none
        else (parseVideoPacket h (payloadOf datagram)).map VideoPacketView.hdr

namespace FrameSlot

/-- A slot given to a frame: the lengths are cleared, the bytes are not. -/
def recycle (slot : FrameSlot) (frameId : UInt32) (pktCount : UInt16) : FrameSlot :=
  { frameId := frameId
    used := true
    lengths := List.replicate pktCount.toNat 0
    bytes := resizeVector slot.bytes (pktCount.toNat * kMaxDatagram) 0 }

/-- A slot of a frame that has more packets than were known. -/
def grow (slot : FrameSlot) (pktCount : UInt16) : FrameSlot :=
  if slot.lengths.length < pktCount.toNat then
    { slot with
      lengths := resizeVector slot.lengths pktCount.toNat 0
      bytes := resizeVector slot.bytes (pktCount.toNat * kMaxDatagram) 0 }
  else slot

/-- A datagram written into the slot. -/
def put (slot : FrameSlot) (pktIndex : UInt16) (datagram : Bytes) : FrameSlot :=
  if pktIndex.toNat ≥ slot.lengths.length then slot
  else
    { slot with
      bytes := copyTo slot.bytes (pktIndex.toNat * kMaxDatagram) datagram
      lengths := slot.lengths.set pktIndex.toNat (UInt16.ofNat datagram.length) }

/-- The datagram of a packet, empty when none is stored. -/
def packet (slot : FrameSlot) (pktIndex : UInt16) : Bytes :=
  if pktIndex.toNat ≥ slot.lengths.length then []
  else
    let length := slot.lengths.getD pktIndex.toNat 0
    if length = 0 then [] else (slot.bytes.drop (pktIndex.toNat * kMaxDatagram)).take length.toNat

end FrameSlot

namespace RetransmitCache

/-- `FindSlot`: the place of the slot. -/
def findSlot (s : RetransmitCache) (frameId : UInt32) : Option Nat :=
  s.slots.findIdx? fun slot => slot.used && slot.frameId = frameId

def slotAt (s : RetransmitCache) (i : Nat) : FrameSlot := s.slots.getD i {}

def store (s : RetransmitCache) (datagram : Bytes) : RetransmitCache :=
  match storedPacket? datagram with
  | none => s
  | some hdr =>
      match s.findSlot hdr.frameId with
      | none =>
          let slot := (s.slotAt s.next).recycle hdr.frameId hdr.pktCount
          { slots := s.slots.set s.next (slot.put hdr.pktIndex datagram)
            next := (s.next + 1) % kCacheFrames }
      | some i =>
          let slot := (s.slotAt i).grow hdr.pktCount
          { s with slots := s.slots.set i (slot.put hdr.pktIndex datagram) }

/-- `Find`: empty when the packet is not there. -/
def find (s : RetransmitCache) (frameId : UInt32) (pktIndex : UInt16) : Bytes :=
  match s.findSlot frameId with
  | none => []
  | some i => (s.slotAt i).packet pktIndex

def reset (s : RetransmitCache) : RetransmitCache :=
  { slots := s.slots.map fun slot => { slot with used := false, frameId := 0, lengths := [] }
    next := 0 }

end RetransmitCache

/-- The calls that change a cache. -/
inductive CacheCall where
  | store (datagram : Bytes)
  | reset
deriving DecidableEq, Repr

def retransmitCache : Machine RetransmitCache CacheCall Empty where
  step s
    | .store datagram => (s.store datagram, [])
    | .reset => (s.reset, [])

/-!
## The retransmit cache as a queue

What the cache is for: a queue of the frames that entered it, with the datagrams that were
stored for each since it entered. The last `kCacheFrames` frames of the queue are in the cache.
Frame number `n` of the queue is in slot `n % kCacheFrames`, and what is left in the slot's
bytes of the frame before is behind a length of zero.
-/

/-! ## The queue -/

structure FrameQueue where
  /-- The frames in the order they entered. -/
  entered : List UInt32 := []
  /-- What was stored for a frame since it entered, the latest first. -/
  stored : UInt32 → List (UInt16 × Bytes) := fun _ => []

namespace FrameQueue

/-- The frames that entered last. -/
def cached (q : FrameQueue) : List UInt32 := q.entered.drop (q.entered.length - kCacheFrames)

/-- A frame that is not in the cache enters it, with nothing stored. -/
def enter (q : FrameQueue) (frameId : UInt32) : FrameQueue :=
  if frameId ∈ q.cached then q
  else
    { entered := q.entered ++ [frameId]
      stored := Function.update q.stored frameId [] }

def store (q : FrameQueue) (datagram : Bytes) : FrameQueue :=
  match storedPacket? datagram with
  | none => q
  | some hdr =>
      let q := q.enter hdr.frameId
      { q with
        stored := Function.update q.stored hdr.frameId
          ((hdr.pktIndex, datagram) :: q.stored hdr.frameId) }

/-- The last datagram stored for a packet. -/
def latest (stored : List (UInt16 × Bytes)) (pktIndex : UInt16) : Option Bytes :=
  (stored.find? fun p => p.1 = pktIndex).map Prod.snd

def find (q : FrameQueue) (frameId : UInt32) (pktIndex : UInt16) : Option Bytes :=
  if frameId ∈ q.cached then latest (q.stored frameId) pktIndex else none

end FrameQueue

/-- The queue with the calls of the cache. -/
def frameQueue : Machine FrameQueue CacheCall Empty where
  step q
    | .store datagram => (q.store datagram, [])
    | .reset => ({}, [])

/-! ## Slots -/

theorem length_resizeVector {α : Type} (xs : List α) (n : Nat) (fill : α) :
    (resizeVector xs n fill).length = n := by
  unfold resizeVector
  rw [List.length_append, List.length_take, List.length_replicate]
  omega

theorem length_copyTo {α : Type} {xs ys : List α} {offset : Nat} (h : offset + ys.length ≤ xs.length) :
    (copyTo xs offset ys).length = xs.length := by
  unfold copyTo
  rw [List.length_append, List.length_append, List.length_take, List.length_drop]
  omega

/-- What was copied. -/
theorem slice_copyTo {α : Type} {xs ys : List α} {offset : Nat} (h : offset ≤ xs.length) :
    ((copyTo xs offset ys).drop offset).take ys.length = ys := by
  have hlength : (xs.take offset).length = offset := by
    rw [List.length_take, Nat.min_eq_left h]
  unfold copyTo
  rw [List.append_assoc, List.drop_append_of_le_length (Nat.le_of_eq hlength.symm)]
  rw [List.drop_of_length_le (Nat.le_of_eq hlength), List.nil_append, List.take_left]

/-- What is before the copy, and what is behind it. -/
theorem slice_copyTo_of_apart {α : Type} {xs ys : List α} {offset start n : Nat}
    (h : offset + ys.length ≤ xs.length) (hapart : start + n ≤ offset ∨ offset + ys.length ≤ start) :
    ((copyTo xs offset ys).drop start).take n = (xs.drop start).take n := by
  apply List.ext_getElem?
  intro k
  rw [List.getElem?_take, List.getElem?_take]
  split
  · next hk =>
    rw [List.getElem?_drop, List.getElem?_drop]
    unfold copyTo
    have hlength : (xs.take offset).length = offset := by
      rw [List.length_take]
      omega
    rcases hapart with hbefore | hbehind
    · rw [List.append_assoc, List.getElem?_append_left (by omega), List.getElem?_take_of_lt (by omega)]
    · rw [List.getElem?_append_right (by rw [List.length_append]; omega), List.length_append, hlength,
        List.getElem?_drop]
      congr 1
      omega
  · rfl

/-- A vector that grows keeps what it has. -/
theorem slice_resizeVector {α : Type} {xs : List α} {m n start : Nat} {fill : α} (hgrows : xs.length ≤ m)
    (h : start + n ≤ xs.length) :
    ((resizeVector xs m fill).drop start).take n = (xs.drop start).take n := by
  unfold resizeVector
  rw [List.take_of_length_le hgrows, List.drop_append_of_le_length (by omega),
    List.take_append_of_le_length (by rw [List.length_drop]; omega)]

/-- A whole step further. -/
theorem mul_add_le_mul {i j : Nat} (h : i < j) (step : Nat) : i * step + step ≤ j * step := by
  rw [← Nat.succ_mul]
  exact Nat.mul_le_mul_right step h

namespace FrameSlot

/-- The slot answers as what was stored says. -/
structure Holds (slot : FrameSlot) (stored : List (UInt16 × Bytes)) : Prop where
  bytes : slot.bytes.length = slot.lengths.length * kMaxDatagram
  small : ∀ length ∈ slot.lengths, length.toNat ≤ kMaxDatagram
  packet : ∀ pktIndex, slot.packet pktIndex = (FrameQueue.latest stored pktIndex).getD []

variable {slot : FrameSlot} {stored : List (UInt16 × Bytes)}

/-- A packet is read as far as its length goes. -/
theorem packet_of_getElem {pktIndex length : UInt16} (h : slot.lengths[pktIndex.toNat]? = some length) :
    slot.packet pktIndex =
      if length = 0 then [] else (slot.bytes.drop (pktIndex.toNat * kMaxDatagram)).take length.toNat := by
  have hlt := (List.getElem?_eq_some_iff.mp h).1
  unfold packet
  rw [if_neg (Nat.not_le.mpr hlt)]
  dsimp only
  rw [List.getD_eq_getElem?_getD, h]
  rfl

theorem packet_of_le {pktIndex : UInt16} (h : slot.lengths.length ≤ pktIndex.toNat) : slot.packet pktIndex = [] :=
  if_pos h

/-- A slot that is given to a frame answers nothing, whatever its bytes are. -/
theorem holds_recycle (slot : FrameSlot) (frameId : UInt32) (pktCount : UInt16) :
    (slot.recycle frameId pktCount).Holds [] := by
  refine ⟨?_, ?_, ?_⟩
  · show (resizeVector _ _ _).length = (List.replicate pktCount.toNat 0).length * kMaxDatagram
    rw [length_resizeVector, List.length_replicate]
  · intro length hlength
    rw [List.eq_of_mem_replicate hlength]
    exact Nat.zero_le _
  · intro pktIndex
    by_cases hlt : pktIndex.toNat < pktCount.toNat
    · have hzero : (slot.recycle frameId pktCount).lengths[pktIndex.toNat]? = some 0 :=
        List.getElem?_replicate_of_lt hlt
      rw [packet_of_getElem hzero]
      rfl
    · apply packet_of_le
      show (List.replicate pktCount.toNat (0 : UInt16)).length ≤ _
      rw [List.length_replicate]
      exact Nat.not_lt.mp hlt

theorem put_same (slot : FrameSlot) (pktIndex : UInt16) (datagram : Bytes) :
    (slot.put pktIndex datagram).frameId = slot.frameId ∧ (slot.put pktIndex datagram).used = slot.used := by
  unfold FrameSlot.put
  split
  · exact ⟨rfl, rfl⟩
  · exact ⟨rfl, rfl⟩

theorem put_grow_same (slot : FrameSlot) (pktCount pktIndex : UInt16) (datagram : Bytes) :
    ((slot.grow pktCount).put pktIndex datagram).frameId = slot.frameId ∧
      ((slot.grow pktCount).put pktIndex datagram).used = slot.used := by
  have hput := (slot.grow pktCount).put_same pktIndex datagram
  have hgrown : (slot.grow pktCount).frameId = slot.frameId ∧ (slot.grow pktCount).used = slot.used := by
    unfold FrameSlot.grow
    split
    · exact ⟨rfl, rfl⟩
    · exact ⟨rfl, rfl⟩
  exact ⟨hput.1.trans hgrown.1, hput.2.trans hgrown.2⟩

theorem le_length_grow (slot : FrameSlot) (pktCount : UInt16) :
    pktCount.toNat ≤ (slot.grow pktCount).lengths.length := by
  unfold FrameSlot.grow
  split
  · show _ ≤ (resizeVector slot.lengths _ _).length
    rw [length_resizeVector]
  · next henough => exact Nat.not_lt.mp henough

/-- A slot that grows answers as before. -/
theorem Holds.grow (h : slot.Holds stored) (pktCount : UInt16) : (slot.grow pktCount).Holds stored := by
  unfold FrameSlot.grow
  split
  · next hfew =>
    have hbytes := h.bytes
    have hmore : slot.bytes.length ≤ pktCount.toNat * kMaxDatagram := by
      rw [hbytes]
      exact Nat.mul_le_mul_right _ hfew.le
    have hlengths : resizeVector slot.lengths pktCount.toNat 0 =
        slot.lengths ++ List.replicate (pktCount.toNat - slot.lengths.length) 0 := by
      unfold resizeVector
      rw [List.take_of_length_le hfew.le]
    refine ⟨?_, ?_, ?_⟩
    · show (resizeVector _ _ _).length = (resizeVector slot.lengths _ _).length * kMaxDatagram
      rw [length_resizeVector, length_resizeVector]
    · intro length hlength
      change length ∈ resizeVector slot.lengths pktCount.toNat 0 at hlength
      rw [hlengths] at hlength
      rcases List.mem_append.mp hlength with hold | hnew
      · exact h.small length hold
      · rw [List.eq_of_mem_replicate hnew]
        exact Nat.zero_le _
    · intro pktIndex
      rw [← h.packet]
      by_cases hold : pktIndex.toNat < slot.lengths.length
      · have hlength := List.getElem?_eq_getElem hold
        have hsame : (resizeVector slot.lengths pktCount.toNat 0)[pktIndex.toNat]? =
            some slot.lengths[pktIndex.toNat] := by
          rw [hlengths, List.getElem?_append_left hold, hlength]
        have hsmall := h.small _ (List.getElem_mem hold)
        have hwithin := mul_add_le_mul hold kMaxDatagram
        rw [packet_of_getElem hlength]
        refine (packet_of_getElem hsame).trans ?_
        congr 1
        exact slice_resizeVector hmore (by rw [hbytes]; omega)
      · rw [packet_of_le (Nat.not_lt.mp hold)]
        by_cases hnew : pktIndex.toNat < pktCount.toNat
        · -- a packet that was not there has length zero
          have hzero : (resizeVector slot.lengths pktCount.toNat 0)[pktIndex.toNat]? = some 0 := by
            rw [hlengths, List.getElem?_append_right (Nat.not_lt.mp hold)]
            exact List.getElem?_replicate_of_lt (by omega)
          refine (packet_of_getElem hzero).trans ?_
          rfl
        · apply packet_of_le
          show (resizeVector slot.lengths pktCount.toNat 0).length ≤ _
          rw [length_resizeVector]
          exact Nat.not_lt.mp hnew
  · exact h

/-- A datagram that is put into a slot is what it answers for that packet, and for no other. -/
theorem Holds.put (h : slot.Holds stored) {pktIndex : UInt16} (hlt : pktIndex.toNat < slot.lengths.length)
    {datagram : Bytes} (hsmall : datagram.length ≤ kMaxDatagram) (hsome : datagram ≠ []) :
    (slot.put pktIndex datagram).Holds ((pktIndex, datagram) :: stored) := by
  have hbytes := h.bytes
  have hwithin := mul_add_le_mul hlt kMaxDatagram
  have hroom : pktIndex.toNat * kMaxDatagram + datagram.length ≤ slot.bytes.length := by
    rw [hbytes]
    omega
  have hnat : (UInt16.ofNat datagram.length).toNat = datagram.length := by
    rw [UInt16.toNat_ofNat']
    have hmax : kMaxDatagram < 2 ^ 16 := by decide
    exact Nat.mod_eq_of_lt (by omega)
  unfold FrameSlot.put
  rw [if_neg (Nat.not_le.mpr hlt)]
  refine ⟨?_, ?_, ?_⟩
  · show (copyTo _ _ _).length = (slot.lengths.set _ _).length * kMaxDatagram
    rw [length_copyTo hroom, List.length_set, hbytes]
  · intro length hlength
    rcases List.mem_or_eq_of_mem_set hlength with hold | rfl
    · exact h.small length hold
    · rw [hnat]
      exact hsmall
  · intro other
    by_cases hsame : other = pktIndex
    · subst hsame
      have hset : (slot.lengths.set other.toNat (UInt16.ofNat datagram.length))[other.toNat]? =
          some (UInt16.ofNat datagram.length) := List.getElem?_set_self hlt
      have hnonzero : UInt16.ofNat datagram.length ≠ 0 := by
        intro hzero
        rw [hzero] at hnat
        exact hsome (List.eq_nil_of_length_eq_zero hnat.symm)
      refine (packet_of_getElem hset).trans ?_
      rw [if_neg hnonzero, hnat, slice_copyTo (by omega)]
      simp [FrameQueue.latest]
    · have hlatest : FrameQueue.latest ((pktIndex, datagram) :: stored) other =
          FrameQueue.latest stored other := by
        simp [FrameQueue.latest, Ne.symm hsame]
      have hapart : other.toNat ≠ pktIndex.toNat := fun heq => hsame (UInt16.toNat_inj.mp heq)
      rw [hlatest, ← h.packet]
      by_cases hold : other.toNat < slot.lengths.length
      · have hlength := List.getElem?_eq_getElem hold
        have hkept : (slot.lengths.set pktIndex.toNat (UInt16.ofNat datagram.length))[other.toNat]? =
            some slot.lengths[other.toNat] := by
          rw [List.getElem?_set_ne (Ne.symm hapart), hlength]
        have hshort := h.small _ (List.getElem_mem hold)
        rw [packet_of_getElem hlength]
        refine (packet_of_getElem hkept).trans ?_
        congr 1
        -- the packets are `kMaxDatagram` apart
        apply slice_copyTo_of_apart hroom
        rcases Nat.lt_or_gt_of_ne hapart with hbefore | hbehind
        · have hstep := mul_add_le_mul hbefore kMaxDatagram
          exact Or.inl (by omega)
        · have hstep := mul_add_le_mul hbehind kMaxDatagram
          exact Or.inr (by omega)
      · rw [packet_of_le (Nat.not_lt.mp hold)]
        apply packet_of_le
        show (slot.lengths.set _ _).length ≤ _
        rw [List.length_set]
        exact Nat.not_lt.mp hold

end FrameSlot

/-- What is stored is a datagram that fits, of a packet that its frame has. -/
theorem storedPacket_spec {datagram : Bytes} {hdr : VideoHeader} (h : storedPacket? datagram = some hdr) :
    datagram.length ≤ kMaxDatagram ∧ datagram ≠ [] ∧ hdr.pktIndex < hdr.pktCount := by
  unfold storedPacket? at h
  split at h
  · cases h
  · next hsmall =>
    cases hcommon : parseCommonHeader datagram with
    | none =>
      rw [hcommon] at h
      cases h
    | some common =>
      rw [hcommon] at h
      dsimp only at h
      split at h
      · cases h
      · rcases Option.map_eq_some_iff.mp h with ⟨pkt, hparse, rfl⟩
        refine ⟨Nat.not_lt.mp hsmall, ?_, ?_⟩
        · rintro rfl
          cases hcommon
        · unfold parseVideoPacket at hparse
          split at hparse
          · cases hparse
          · split at hparse
            · cases hparse
            · dsimp only at hparse
              split at hparse
              · cases hparse
              · next hindex =>
                cases hparse
                exact UInt16.not_le.mp (not_or.mp hindex).2

/-! ## The cache mirrors the queue -/

namespace FrameQueue

variable {q : FrameQueue} {datagram : Bytes} {hdr : VideoHeader}

theorem store_cached (hd : storedPacket? datagram = some hdr) (hcached : hdr.frameId ∈ q.cached) :
    q.store datagram =
      ⟨q.entered, Function.update q.stored hdr.frameId ((hdr.pktIndex, datagram) :: q.stored hdr.frameId)⟩ := by
  unfold store enter
  rw [hd]
  dsimp only
  rw [if_pos hcached]

theorem store_new (hd : storedPacket? datagram = some hdr) (hnew : hdr.frameId ∉ q.cached) :
    q.store datagram =
      ⟨q.entered ++ [hdr.frameId], Function.update q.stored hdr.frameId [(hdr.pktIndex, datagram)]⟩ := by
  unfold store enter
  rw [hd]
  dsimp only
  rw [if_neg hnew]
  dsimp only
  rw [Function.update_self, Function.update_idem]

end FrameQueue

/-- Frame number `n` of the queue is one of the last. -/
def FrameQueue.InWindow (q : FrameQueue) (n : Nat) (frameId : UInt32) : Prop :=
  q.entered.length ≤ n + kCacheFrames ∧ q.entered[n]? = some frameId

theorem FrameQueue.mem_cached_iff {q : FrameQueue} {frameId : UInt32} :
    frameId ∈ q.cached ↔ ∃ n, q.InWindow n frameId := by
  unfold cached InWindow
  rw [List.mem_iff_getElem?]
  constructor
  · rintro ⟨k, hk⟩
    rw [List.getElem?_drop] at hk
    exact ⟨_, by omega, hk⟩
  · rintro ⟨n, hn, hframe⟩
    refine ⟨n - (q.entered.length - kCacheFrames), ?_⟩
    rw [List.getElem?_drop]
    rwa [show q.entered.length - kCacheFrames + (n - (q.entered.length - kCacheFrames)) = n by omega]

/-- Every used slot is the one of a frame among the last, and answers as what was stored for it says;
no frame is among them twice. -/
structure Mirrors (s : RetransmitCache) (q : FrameQueue) : Prop where
  slots : s.slots.length = kCacheFrames
  next : s.next = q.entered.length % kCacheFrames
  used : ∀ i slot, s.slots[i]? = some slot → slot.used = true →
    ∃ n, i = n % kCacheFrames ∧ q.InWindow n slot.frameId
  holds : ∀ n frameId, q.InWindow n frameId → ∃ slot, s.slots[n % kCacheFrames]? = some slot ∧
    slot.used = true ∧ slot.frameId = frameId ∧ slot.Holds (q.stored frameId)
  once : ∀ n m frameId, q.InWindow n frameId → q.InWindow m frameId → n = m

/-- Numbers less than a round apart are in different slots. -/
theorem mod_ne_mod {n m : Nat} (hlt : n < m) (hround : m + 1 ≤ n + kCacheFrames) :
    n % kCacheFrames ≠ m % kCacheFrames := by
  unfold kCacheFrames at *
  omega

namespace Mirrors

variable {s : RetransmitCache} {q : FrameQueue}

theorem init : Mirrors {} {} := by
  refine ⟨rfl, rfl, ?_, ?_, ?_⟩
  · intro i slot hslot hused
    rw [List.eq_of_mem_replicate (List.mem_of_getElem? hslot)] at hused
    cases hused
  · rintro n frameId ⟨-, hframe⟩
    cases hframe
  · rintro n m frameId ⟨-, hframe⟩
    cases hframe

/-- The slot of a frame is found by its number in the queue. -/
theorem findSlot_some (h : Mirrors s q) {frameId : UInt32} {i : Nat} (hfind : s.findSlot frameId = some i) :
    ∃ n, i = n % kCacheFrames ∧ q.InWindow n frameId := by
  unfold RetransmitCache.findSlot at hfind
  rw [List.findIdx?_eq_some_iff_getElem] at hfind
  rcases hfind with ⟨hlt, hmatch, -⟩
  rw [Bool.and_eq_true, decide_eq_true_eq] at hmatch
  rcases h.used i s.slots[i] (List.getElem?_eq_getElem hlt) hmatch.1 with ⟨n, hn, hwindow⟩
  exact ⟨n, hn, hmatch.2 ▸ hwindow⟩

theorem findSlot_none (h : Mirrors s q) {frameId : UInt32} (hfind : s.findSlot frameId = none) :
    frameId ∉ q.cached := by
  intro hmem
  rcases FrameQueue.mem_cached_iff.mp hmem with ⟨n, hwindow⟩
  rcases h.holds n frameId hwindow with ⟨slot, hslot, hused, hframe, -⟩
  unfold RetransmitCache.findSlot at hfind
  have hmatch := List.findIdx?_eq_none_iff.mp hfind slot (List.mem_of_getElem? hslot)
  rw [hused, hframe] at hmatch
  simp at hmatch

/-- The cache finds what the queue finds. -/
theorem find_eq (h : Mirrors s q) (frameId : UInt32) (pktIndex : UInt16) :
    s.find frameId pktIndex = (q.find frameId pktIndex).getD [] := by
  unfold RetransmitCache.find FrameQueue.find
  cases hfind : s.findSlot frameId with
  | none => rw [if_neg (h.findSlot_none hfind)]; rfl
  | some i =>
    rcases h.findSlot_some hfind with ⟨n, rfl, hwindow⟩
    rcases h.holds n frameId hwindow with ⟨slot, hslot, -, -, hholds⟩
    rw [if_pos (FrameQueue.mem_cached_iff.mpr ⟨n, hwindow⟩)]
    have hat : s.slotAt (n % kCacheFrames) = slot := by
      unfold RetransmitCache.slotAt
      rw [List.getD_eq_getElem?_getD, hslot]
      rfl
    dsimp only
    rw [hat]
    exact hholds.packet pktIndex

/-- The slot of a frame that is in the cache, with a datagram more. -/
theorem put (h : Mirrors s q) {hdr : VideoHeader} {datagram : Bytes} (hd : storedPacket? datagram = some hdr)
    {n : Nat} (hwindow : q.InWindow n hdr.frameId) :
    Mirrors
      ⟨s.slots.set (n % kCacheFrames)
        (((s.slotAt (n % kCacheFrames)).grow hdr.pktCount).put hdr.pktIndex datagram), s.next⟩
      ⟨q.entered,
        Function.update q.stored hdr.frameId ((hdr.pktIndex, datagram) :: q.stored hdr.frameId)⟩ := by
  rcases storedPacket_spec hd with ⟨hsmall, hsome, hindex⟩
  rcases h.holds n hdr.frameId hwindow with ⟨slot, hslot, hused, hframe, hholds⟩
  have hlt := (List.getElem?_eq_some_iff.mp hslot).1
  have hat : s.slotAt (n % kCacheFrames) = slot := by
    unfold RetransmitCache.slotAt
    rw [List.getD_eq_getElem?_getD, hslot]
    rfl
  rw [hat]
  have hput := (hholds.grow hdr.pktCount).put
    (Nat.lt_of_lt_of_le (UInt16.lt_iff_toNat_lt.mp hindex) (slot.le_length_grow hdr.pktCount)) hsmall hsome
  have hkept := slot.put_grow_same hdr.pktCount hdr.pktIndex datagram
  refine ⟨by rw [List.length_set]; exact h.slots, h.next, ?_, ?_, h.once⟩
  · intro i other hother hin
    by_cases hsame : i = n % kCacheFrames
    · subst hsame
      rw [List.getElem?_set_self hlt] at hother
      cases hother
      rw [hkept.1, hframe]
      exact ⟨n, rfl, hwindow⟩
    · rw [List.getElem?_set_ne (Ne.symm hsame)] at hother
      exact h.used i other hother hin
  · intro m frameId hm
    by_cases hsame : frameId = hdr.frameId
    · subst hsame
      dsimp only
      rw [h.once m n _ hm hwindow, List.getElem?_set_self hlt, Function.update_self]
      exact ⟨_, rfl, hkept.2.trans hused, hkept.1.trans hframe, hput⟩
    · rcases h.holds m frameId hm with ⟨other, hother, hin, hother', hanswers⟩
      -- another frame is in another slot
      have hapart : n % kCacheFrames ≠ m % kCacheFrames := by
        intro heq
        rw [heq, hother] at hslot
        cases hslot
        exact hsame (hother'.symm.trans hframe)
      refine ⟨other, ?_, hin, hother', ?_⟩
      · rw [List.getElem?_set_ne hapart]
        exact hother
      · dsimp only
        rw [Function.update_of_ne hsame]
        exact hanswers

/-- The next slot, given to a frame that enters the cache. -/
theorem enter (h : Mirrors s q) {hdr : VideoHeader} {datagram : Bytes} (hd : storedPacket? datagram = some hdr)
    (hnew : hdr.frameId ∉ q.cached) :
    Mirrors
      ⟨s.slots.set s.next
        (((s.slotAt s.next).recycle hdr.frameId hdr.pktCount).put hdr.pktIndex datagram),
        (s.next + 1) % kCacheFrames⟩
      ⟨q.entered ++ [hdr.frameId], Function.update q.stored hdr.frameId [(hdr.pktIndex, datagram)]⟩ := by
  rcases storedPacket_spec hd with ⟨hsmall, hsome, hindex⟩
  have hcount : (((s.slotAt s.next).recycle hdr.frameId hdr.pktCount).lengths).length = hdr.pktCount.toNat :=
    List.length_replicate
  have hput := ((s.slotAt s.next).holds_recycle hdr.frameId hdr.pktCount).put
    (by rw [hcount]; exact UInt16.lt_iff_toNat_lt.mp hindex) hsmall hsome
  have hkept := ((s.slotAt s.next).recycle hdr.frameId hdr.pktCount).put_same hdr.pktIndex datagram
  have hnext := h.next
  have hlt : s.next < s.slots.length := by
    rw [hnext, h.slots]
    exact Nat.mod_lt _ (by decide)
  -- a frame of the window after is the new one or was in the window before, in another slot
  have hwindow : ∀ n frameId,
      (FrameQueue.mk (q.entered ++ [hdr.frameId])
        (Function.update q.stored hdr.frameId [(hdr.pktIndex, datagram)])).InWindow n frameId →
      n = q.entered.length ∧ frameId = hdr.frameId ∨
        n < q.entered.length ∧ n % kCacheFrames ≠ s.next ∧ q.InWindow n frameId := by
    rintro n frameId ⟨hlast, hframe⟩
    change (q.entered ++ [hdr.frameId]).length ≤ n + kCacheFrames at hlast
    change (q.entered ++ [hdr.frameId])[n]? = some frameId at hframe
    rw [List.length_append, List.length_singleton] at hlast
    rcases Nat.lt_trichotomy n q.entered.length with hbefore | hsame | hbehind
    · rw [List.getElem?_append_left hbefore] at hframe
      exact Or.inr ⟨hbefore, hnext ▸ mod_ne_mod hbefore hlast, by omega, hframe⟩
    · subst hsame
      rw [List.getElem?_concat_length] at hframe
      cases hframe
      exact Or.inl ⟨rfl, rfl⟩
    · rw [List.getElem?_eq_none (by rw [List.length_append, List.length_singleton]; omega)] at hframe
      cases hframe
  refine ⟨by rw [List.length_set]; exact h.slots, ?_, ?_, ?_, ?_⟩
  · show (s.next + 1) % kCacheFrames = (q.entered ++ [hdr.frameId]).length % kCacheFrames
    rw [List.length_append, List.length_singleton, hnext, Nat.mod_add_mod]
  · intro i slot hslot hin
    by_cases hsame : i = s.next
    · subst hsame
      rw [List.getElem?_set_self hlt] at hslot
      cases hslot
      refine ⟨q.entered.length, hnext, ?_, ?_⟩
      · show (q.entered ++ [hdr.frameId]).length ≤ _
        rw [List.length_append, List.length_singleton]
        exact Nat.add_le_add_left (by decide) _
      · rw [hkept.1]
        exact List.getElem?_concat_length
    · rw [List.getElem?_set_ne (Ne.symm hsame)] at hslot
      rcases h.used i slot hslot hin with ⟨n, hn, hlast, hframe⟩
      have hbefore := (List.getElem?_eq_some_iff.mp hframe).1
      refine ⟨n, hn, ?_, ?_⟩
      · show (q.entered ++ [hdr.frameId]).length ≤ _
        have hinner : q.entered.length ≠ n + kCacheFrames := by
          intro heq
          rw [hn, hnext, heq, Nat.add_mod_right] at hsame
          exact hsame rfl
        rw [List.length_append, List.length_singleton]
        omega
      · show (q.entered ++ [hdr.frameId])[n]? = _
        rw [List.getElem?_append_left hbefore]
        exact hframe
  · intro n frameId hin
    rcases hwindow n frameId hin with ⟨rfl, rfl⟩ | ⟨-, hother, hin'⟩
    · dsimp only
      rw [← hnext, List.getElem?_set_self hlt, Function.update_self]
      exact ⟨_, rfl, hkept.2, hkept.1, hput⟩
    · rcases h.holds n frameId hin' with ⟨slot, hslot, hused, hframe, hholds⟩
      have hne : frameId ≠ hdr.frameId := by
        rintro rfl
        exact hnew (FrameQueue.mem_cached_iff.mpr ⟨n, hin'⟩)
      dsimp only
      rw [List.getElem?_set_ne (Ne.symm hother), Function.update_of_ne hne]
      exact ⟨slot, hslot, hused, hframe, hholds⟩
  · intro n m frameId hn hm
    have hout : ∀ k, ¬ q.InWindow k hdr.frameId := fun k hk =>
      hnew (FrameQueue.mem_cached_iff.mpr ⟨k, hk⟩)
    rcases hwindow n frameId hn with ⟨rfl, rfl⟩ | ⟨-, -, hn'⟩
    · rcases hwindow m _ hm with ⟨rfl, -⟩ | ⟨-, -, hm'⟩
      · rfl
      · exact absurd hm' (hout m)
    · rcases hwindow m frameId hm with ⟨rfl, rfl⟩ | ⟨-, -, hm'⟩
      · exact absurd hn' (hout n)
      · exact h.once n m frameId hn' hm'

/-- A call of the cache does what the call of the queue does. -/
theorem step (h : Mirrors s q) (call : CacheCall) :
    Mirrors (retransmitCache.step s call).1 (frameQueue.step q call).1 := by
  cases call with
  | store datagram =>
    show Mirrors (s.store datagram) (q.store datagram)
    unfold RetransmitCache.store
    cases hd : storedPacket? datagram with
    | none =>
      unfold FrameQueue.store
      rw [hd]
      exact h
    | some hdr =>
      dsimp only
      cases hfind : s.findSlot hdr.frameId with
      | none =>
        have hnew := h.findSlot_none hfind
        rw [FrameQueue.store_new hd hnew]
        exact h.enter hd hnew
      | some i =>
        rcases h.findSlot_some hfind with ⟨n, rfl, hwindow⟩
        rw [FrameQueue.store_cached hd (FrameQueue.mem_cached_iff.mpr ⟨n, hwindow⟩)]
        exact h.put hd hwindow
  | reset =>
    refine ⟨?_, rfl, ?_, ?_, ?_⟩
    · show (s.slots.map _).length = _
      rw [List.length_map]
      exact h.slots
    · intro i slot hslot hused
      rcases List.mem_map.mp (List.mem_of_getElem? hslot) with ⟨old, -, rfl⟩
      cases hused
    · rintro n frameId ⟨-, hframe⟩
      cases hframe
    · rintro n m frameId ⟨-, hframe⟩
      cases hframe

/-- After any calls. -/
theorem run (calls : List CacheCall) :
    Mirrors (retransmitCache.run {} calls).1 (frameQueue.run {} calls).1 := by
  induction calls using List.reverseRecOn with
  | nil => exact init
  | append_singleton calls call ih =>
    rw [Machine.run_concat, Machine.run_concat]
    exact ih.step call

end Mirrors

/-! ## What is found -/

namespace FrameQueue

variable {q : FrameQueue} {datagram : Bytes} {hdr : VideoHeader}

/-- A datagram changes what is found for no other packet of its frame, and for no other frame when its own
is in the cache. -/
theorem find_store (hd : storedPacket? datagram = some hdr) {frameId : UInt32} {pktIndex : UInt16}
    (hother : frameId = hdr.frameId ∧ pktIndex ≠ hdr.pktIndex ∨
      frameId ≠ hdr.frameId ∧ hdr.frameId ∈ q.cached) :
    (q.store datagram).find frameId pktIndex = q.find frameId pktIndex := by
  have hlatest : ∀ stored : List (UInt16 × Bytes), pktIndex ≠ hdr.pktIndex →
      latest ((hdr.pktIndex, datagram) :: stored) pktIndex = latest stored pktIndex := by
    intro stored hne
    simp [latest, Ne.symm hne]
  by_cases hcached : hdr.frameId ∈ q.cached
  · have hstored : latest (Function.update q.stored hdr.frameId
        ((hdr.pktIndex, datagram) :: q.stored hdr.frameId) frameId) pktIndex =
        latest (q.stored frameId) pktIndex := by
      rcases hother with ⟨rfl, hne⟩ | ⟨hne, -⟩
      · rw [Function.update_self, hlatest _ hne]
      · rw [Function.update_of_ne hne]
    rw [store_cached hd hcached]
    unfold find
    rw [← hstored]
    rfl
  · -- the frame enters with this one packet
    rcases hother with ⟨rfl, hne⟩ | ⟨-, hin⟩
    · have hnone : latest (Function.update q.stored hdr.frameId [(hdr.pktIndex, datagram)] hdr.frameId)
          pktIndex = none := by
        rw [Function.update_self, hlatest _ hne]
        rfl
      rw [store_new hd hcached]
      unfold find
      rw [if_neg hcached]
      dsimp only
      rw [hnone]
      exact ite_self none
    · exact absurd hin hcached

end FrameQueue

/-- The cache after any calls finds the last datagram stored for a packet since its frame entered, if the
frame is one of the last that entered, and nothing otherwise. A datagram that is stored next, with
whatever packet count, changes this for no other packet of its frame, and for no packet of
another frame unless its own frame enters the cache with it. -/
theorem retransmitCache_fifo (calls : List CacheCall) (frameId : UInt32) (pktIndex : UInt16) :
    (retransmitCache.run {} calls).1.find frameId pktIndex =
        ((frameQueue.run {} calls).1.find frameId pktIndex).getD [] ∧
      ∀ datagram hdr, storedPacket? datagram = some hdr →
        (frameId = hdr.frameId ∧ pktIndex ≠ hdr.pktIndex ∨
          frameId ≠ hdr.frameId ∧ hdr.frameId ∈ (frameQueue.run {} calls).1.cached) →
        (retransmitCache.run {} (calls ++ [.store datagram])).1.find frameId pktIndex =
          (retransmitCache.run {} calls).1.find frameId pktIndex := by
  refine ⟨(Mirrors.run calls).find_eq frameId pktIndex, ?_⟩
  intro datagram hdr hd hother
  have hsame := FrameQueue.find_store hd hother
  have hafter := (Mirrors.run (calls ++ [CacheCall.store datagram])).find_eq frameId pktIndex
  have hnext : (frameQueue.run {} (calls ++ [CacheCall.store datagram])).1 =
      (frameQueue.run {} calls).1.store datagram := by
    rw [Machine.run_concat]
    rfl
  rw [hafter, (Mirrors.run calls).find_eq, hnext, hsame]

end Deskhub
