import Deskhub.Transport.ExactFrames
import Deskhub.Transport.RetransmitCache

/-!
# The host's end of the video

`SendEncodedFrame` cuts each frame that the encoder gives into datagrams, sends each of them to all
viewers and then stores it; `RespondToNack` and `ForgetViewers` come in between, from the thread of
the network. The frames are numbered in the order they are sent in. What is stored is what was
sent, and a frame that was sent to its end can be asked for while it is one of the last.
-/

namespace Deskhub

open OrdMap

/-! ## The model -/

/-- What `SendEncodedFrame` reads of the session when a frame comes. -/
structure StreamView where
  streaming : Bool
  sessionId : UInt32
  viewers : List UInt64
  wantFec : Bool
deriving DecidableEq, Repr

/-- The frame that is being sent: to whom, what is still to be sent, and the datagram that was sent and is
not stored yet. -/
structure FrameBurst where
  viewers : List UInt64 := []
  unsent : List Bytes := []
  sent : Option Bytes := none
deriving DecidableEq, Repr

def FrameBurst.busy (b : FrameBurst) : Bool := b.sent.isSome || !b.unsent.isEmpty

structure VideoHost where
  packetizer : Packetizer := {}
  nextFrameId : UInt32 := 0
  retxCache : RetransmitCache := {}
  burst : FrameBurst := {}

inductive VideoHostEvent where
  | sendTo (addrPacked : UInt64) (datagram : Bytes)
  | sendToRequester (datagram : Bytes)
deriving DecidableEq, Repr

namespace VideoHost

/-- The start of `SendEncodedFrame`, up to the loop over the datagrams. -/
def sendEncodedFrame (s : VideoHost) (view : StreamView) (nal : Bytes) (timestampUs : UInt64) (keyframe : Bool) :
    VideoHost :=
  if !view.streaming then s
  else if view.viewers = [] then s
  else
    let packetizer : Packetizer := ⟨view.sessionId, view.wantFec⟩
    { s with
      packetizer := packetizer
      nextFrameId := s.nextFrameId + 1
      burst :=
        { viewers := view.viewers
          unsent := (packetizer.sendFrame ⟨nal, s.nextFrameId, timestampUs, keyframe⟩).1 } }

/-- The next datagram goes to all viewers. -/
def sendNext (s : VideoHost) : VideoHost × List VideoHostEvent :=
  match s.burst.sent, s.burst.unsent with
  | none, d :: rest =>
      ({ s with burst := { s.burst with unsent := rest, sent := some d } },
        s.burst.viewers.map fun addr => .sendTo addr d)
  | _, _ => (s, [])

/-- The datagram that was sent is stored. -/
def storeNext (s : VideoHost) : VideoHost :=
  match s.burst.sent with
  | none => s
  | some d => { s with retxCache := s.retxCache.store d, burst := { s.burst with sent := none } }

def respondToNack (s : VideoHost) (viewerCount : Nat) (frameId : UInt32) (indices : List UInt16) :
    List VideoHostEvent :=
  if viewerCount = 0 then []
  else
    ((indices.map fun idx => s.retxCache.find frameId idx).filter fun d => d ≠ []).map .sendToRequester

def forgetViewers (s : VideoHost) : VideoHost := { s with retxCache := s.retxCache.reset }

end VideoHost

inductive VideoHostInput where
  /-- A frame out of the encoder, whose thread sends one frame after the other. -/
  | encoded (view : StreamView) (nal : Bytes) (timestampUs : UInt64) (keyframe : Bool)
  | sendNext
  | storeNext
  | nack (viewerCount : Nat) (frameId : UInt32) (indices : List UInt16)
  | forgetViewers

def videoHost : Machine VideoHost VideoHostInput VideoHostEvent where
  step s
    | .encoded view nal timestampUs keyframe =>
        if s.burst.busy then (s, []) else (s.sendEncodedFrame view nal timestampUs keyframe, [])
    | .sendNext => s.sendNext
    | .storeNext => (s.storeNext, [])
    | .nack viewerCount frameId indices => (s, s.respondToNack viewerCount frameId indices)
    | .forgetViewers => (s.forgetViewers, [])

/-! ## The datagrams of a frame -/

/-- The datagram is one of those frames'. -/
def DatagramOf (sent : List (Packetizer × SentFrame)) (d : Bytes) : Prop :=
  ∃ x ∈ sent, d ∈ (x.1.sendFrame x.2).1

namespace Packetizer

variable {p : Packetizer} {f : SentFrame} {i : Nat} {d : Bytes}

/-- A piece fits its datagram. -/
theorem videoDatagram_some (p : Packetizer) (f : SentFrame) (i : Nat) : ∃ d, p.videoDatagram f i = some d := by
  have hpiece := length_piece_le f.nal i
  have hmax : kMaxVideoPayload = 1174 := rfl
  unfold videoDatagram buildVideoPacket writeCommon
  dsimp only
  rw [if_neg (by omega), if_neg]
  · exact ⟨_, rfl⟩
  · simp [kMaxDatagram, kCommonHeaderSize, putU32, putU64, putU16]
    omega

/-- A video datagram is stored for its piece. -/
theorem storedPacket_videoDatagram (hi : i < packetCount f.nal) (hsmall : packetCount f.nal ≤ 0xFFFF)
    (hd : p.videoDatagram f i = some d) :
    storedPacket? d = some ⟨f.frameId, f.timestampUs, UInt16.ofNat i, UInt16.ofNat (packetCount f.nal)⟩ := by
  have hlt : UInt16.ofNat i < UInt16.ofNat (packetCount f.nal) := by
    rw [UInt16.lt_iff_toNat_lt, toNat_ofNat_u16 (by omega), toNat_ofNat_u16 hsmall]
    exact hi
  have hsize : d.length ≤ kMaxDatagram := by
    unfold videoDatagram buildVideoPacket at hd
    dsimp only at hd
    split at hd
    · cases hd
    · obtain ⟨hfits, rfl⟩ := writeCommon_eq_some.mp hd
      simp only [List.length_append, List.length_cons, List.length_nil, length_putU32]
      simp only [List.length_append, length_putU32] at hfits
      omega
  obtain ⟨hdr, hparse, htype, -, hview⟩ := parseVideoPacket_build hlt hd
  unfold storedPacket?
  rw [if_neg (Nat.not_lt.mpr hsize), hparse]
  dsimp only
  rw [if_neg (not_not.mpr htype), hview]
  rfl

/-- A parity datagram is not stored. -/
theorem storedPacket_parity {g : Nat} (hg : g < numGroups (packetCount f.nal))
    (hsmall : packetCount f.nal ≤ 0xFFFF)
    (hd : buildFecPacket kMaxDatagram p.sessionId
      ⟨f.frameId, f.timestampUs, UInt16.ofNat (packetCount f.nal), UInt8.ofNat g⟩ f.idr
      (parityOf f.nal g) = some d) : storedPacket? d = none := by
  have hlt : (UInt8.ofNat g).toNat < numGroups (UInt16.ofNat (packetCount f.nal)).toNat := by
    rw [toNat_ofNat_u16 hsmall, UInt8.toNat_ofNat']
    exact lt_of_le_of_lt (Nat.mod_le _ _) hg
  obtain ⟨hdr, hparse, htype, -, -⟩ := parseFecPacket_build hlt hd
  unfold storedPacket?
  split
  · rfl
  · rw [hparse]
    dsimp only
    rw [if_pos (by rw [htype]; decide)]

/-- What is stored of a frame's datagrams are its pieces. -/
theorem storedPacket_sendFrame {hdr : VideoHeader} (hd : d ∈ (p.sendFrame f).1) (hhdr : storedPacket? d = some hdr) :
    ∃ i, i < packetCount f.nal ∧ packetCount f.nal ≤ 0xFFFF ∧ p.videoDatagram f i = some d ∧
      hdr.frameId = f.frameId ∧ hdr.pktIndex = UInt16.ofNat i := by
  obtain ⟨-, hsmall, ⟨i, hi, hbuild⟩ | ⟨-, g, hg, hbuild⟩⟩ := sendFrame_sent hd
  · rw [storedPacket_videoDatagram hi hsmall hbuild] at hhdr
    obtain rfl := Option.some.inj hhdr
    exact ⟨i, hi, hsmall, hbuild, rfl, rfl⟩
  · rw [storedPacket_parity hg hsmall hbuild] at hhdr
    cases hhdr

/-- A frame sends one datagram for each piece. -/
theorem eq_of_storedPacket {d' : Bytes} {hdr hdr' : VideoHeader} (hd : d ∈ (p.sendFrame f).1)
    (hd' : d' ∈ (p.sendFrame f).1) (hhdr : storedPacket? d = some hdr) (hhdr' : storedPacket? d' = some hdr')
    (hindex : hdr.pktIndex = hdr'.pktIndex) : d = d' := by
  obtain ⟨i, hi, hsmall, hbuild, -, hi'⟩ := storedPacket_sendFrame hd hhdr
  obtain ⟨j, hj, -, hbuild', -, hj'⟩ := storedPacket_sendFrame hd' hhdr'
  have hsame : i = j := by
    have heq := congrArg UInt16.toNat (hi'.symm.trans (hindex.trans hj'))
    rwa [toNat_ofNat_u16 (by omega), toNat_ofNat_u16 (by omega)] at heq
  subst hsame
  exact Option.some.inj (hbuild.symm.trans hbuild')

theorem mem_sendPieces {is : List Nat} {parity : List Bytes} (hi : i ∈ is) (hd : p.videoDatagram f i = some d) :
    d ∈ (p.sendPieces f is parity).1 := by
  induction is generalizing parity with
  | nil => cases hi
  | cons j is ih =>
    obtain ⟨d', hd'⟩ := p.videoDatagram_some f j
    unfold sendPieces
    rw [hd']
    dsimp only
    rcases List.mem_cons.mp hi with rfl | hrest
    · obtain rfl := Option.some.inj (hd.symm.trans hd')
      exact List.mem_cons_self
    · exact List.mem_cons_of_mem _ (ih hrest)

/-- All pieces of a frame are sent. -/
theorem mem_sendFrame (hnal : f.nal ≠ []) (hsmall : packetCount f.nal ≤ 0xFFFF) (hi : i < packetCount f.nal)
    (hd : p.videoDatagram f i = some d) : d ∈ (p.sendFrame f).1 := by
  have hpiece : ∀ parity, d ∈ (p.sendPieces f (List.range (packetCount f.nal)) parity).1 := fun parity =>
    mem_sendPieces (List.mem_range.mpr hi) hd
  unfold sendFrame
  rw [if_neg hnal]
  dsimp only
  rw [if_neg (by omega)]
  split
  · exact hpiece _
  · split
    · exact hpiece _
    · split
      · exact List.mem_append_left _ (hpiece _)
      · exact List.mem_append_left _ (hpiece _)

end Packetizer

/-! ## What the queue keeps -/

namespace FrameQueue

variable {q : FrameQueue} {d e : Bytes} {hdr : VideoHeader}

/-- The datagram, when it is one that is stored, was stored last for its packet. -/
def Keeps (q : FrameQueue) (d : Bytes) : Prop :=
  ∀ hdr, storedPacket? d = some hdr →
    hdr.frameId ∈ q.entered ∧ latest (q.stored hdr.frameId) hdr.pktIndex = some d

theorem keeps_store_self (q : FrameQueue) (d : Bytes) : (q.store d).Keeps d := by
  intro hdr hhdr
  have hfirst : ∀ stored : List (UInt16 × Bytes), latest ((hdr.pktIndex, d) :: stored) hdr.pktIndex = some d := by
    intro stored
    simp [latest]
  by_cases hcached : hdr.frameId ∈ q.cached
  · rw [store_cached hhdr hcached]
    dsimp only
    rw [Function.update_self]
    exact ⟨List.mem_of_mem_drop hcached, hfirst _⟩
  · rw [store_new hhdr hcached]
    dsimp only
    rw [Function.update_self]
    exact ⟨List.mem_append_right _ (List.mem_singleton_self _), hfirst _⟩

/-- A datagram stays kept when another one is stored, unless the other is for its packet, or its frame enters
anew. -/
theorem Keeps.store (h : q.Keeps e) (hhdr : storedPacket? d = some hdr)
    (hsame : ∀ hdr', storedPacket? e = some hdr' → hdr'.frameId = hdr.frameId →
      hdr'.pktIndex = hdr.pktIndex → e = d)
    (hfresh : hdr.frameId ∈ q.entered → hdr.frameId ∈ q.cached) : (q.store d).Keeps e := by
  intro hdr' hhdr'
  obtain ⟨hentered, hlatest⟩ := h hdr' hhdr'
  by_cases hframe : hdr'.frameId = hdr.frameId
  · have hcached := hfresh (hframe ▸ hentered)
    rw [store_cached hhdr hcached]
    refine ⟨hentered, ?_⟩
    dsimp only
    rw [hframe, Function.update_self]
    by_cases hindex : hdr'.pktIndex = hdr.pktIndex
    · obtain rfl := hsame hdr' hhdr' hframe hindex
      simp [latest, hindex]
    · rw [← hlatest, hframe]
      simp [latest, Ne.symm hindex]
  · by_cases hcached : hdr.frameId ∈ q.cached
    · rw [store_cached hhdr hcached]
      refine ⟨hentered, ?_⟩
      dsimp only
      rw [Function.update_of_ne hframe]
      exact hlatest
    · rw [store_new hhdr hcached]
      refine ⟨List.mem_append_left _ hentered, ?_⟩
      dsimp only
      rw [Function.update_of_ne hframe]
      exact hlatest

/-- Numbers that increase to a bound are few. -/
theorem length_increasing {ids : List UInt32} {id : UInt32} {bound : Nat} (hid : id.toNat < bound)
    (hincreasing : (id :: ids).Pairwise (· < ·)) (hbound : ∀ j ∈ ids, j.toNat < bound) :
    id.toNat + ids.length < bound := by
  induction ids generalizing id with
  | nil => exact hid
  | cons j ids ih =>
    obtain ⟨hfirst, hrest⟩ := List.pairwise_cons.mp hincreasing
    have hlt := UInt32.lt_iff_toNat_lt.mp (hfirst j List.mem_cons_self)
    have hlast := ih (hbound j List.mem_cons_self) hrest fun i hi => hbound i (List.mem_cons_of_mem _ hi)
    rw [List.length_cons]
    omega

/-- Where the frames enter in the order of their ids, one of the last ids is one of the last frames. -/
theorem mem_cached_of_recent {id : UInt32} {bound : Nat} (hincreasing : q.entered.Pairwise (· < ·))
    (hbound : ∀ j ∈ q.entered, j.toNat < bound) (hid : id ∈ q.entered)
    (hrecent : bound ≤ id.toNat + kCacheFrames) : id ∈ q.cached := by
  obtain ⟨older, newer, hsplit⟩ := List.append_of_mem hid
  rw [hsplit] at hincreasing
  have hnewer := length_increasing (hbound id hid) (List.pairwise_append.mp hincreasing).2.1
    fun j hj => hbound j (hsplit ▸ List.mem_append_right _ (List.mem_cons_of_mem _ hj))
  refine mem_cached_iff.mpr ⟨older.length, ?_, ?_⟩
  · rw [hsplit, List.length_append, List.length_cons]
    omega
  · rw [hsplit, List.getElem?_append_right (Nat.le_refl _), Nat.sub_self]
    rfl

end FrameQueue

end Deskhub

/-!
## The host answers with what it sent

The books of the host's video, over its runs: the frames that were begun have their place in the
order as their number, and what the cache has stored are datagrams of them. Of the frames begun
since the viewers were last forgotten every piece that was sent is stored, so a frame that was sent
to its end is answered for in full as long as it is one of the last.
-/

namespace Deskhub

namespace VideoHost

/-- The frame that an input begins to send, with the packetizer as it is then. -/
def begins (s : VideoHost) : VideoHostInput → Option (Packetizer × SentFrame)
  | .encoded view nal timestampUs keyframe =>
      if s.burst.busy || !view.streaming || view.viewers.isEmpty then none
      else some (⟨view.sessionId, view.wantFec⟩, ⟨nal, s.nextFrameId, timestampUs, keyframe⟩)
  | _ => none

/-- The number of frames that were begun when the viewers were last forgotten. -/
def forgets (frames : List (Packetizer × SentFrame)) (forgotten : Nat) : VideoHostInput → Nat
  | .forgetViewers => frames.length
  | _ => forgotten

/-- The datagrams of the last frame. -/
def lastDatagrams (frames : List (Packetizer × SentFrame)) : List Bytes :=
  (frames.getLast?.map fun x => (x.1.sendFrame x.2).1).getD []

/-- What the host has done: `frames` are those it began, `forgotten` of them before its viewers were last
forgotten, and `q` is what its cache stands for. -/
structure Agrees (frames : List (Packetizer × SentFrame)) (forgotten : Nat) (s : VideoHost) (q : FrameQueue) :
    Prop where
  numbered : ∀ k x, frames[k]? = some x → x.2.frameId = UInt32.ofNat k
  next : s.nextFrameId = UInt32.ofNat frames.length
  mirrors : Mirrors s.retxCache q
  stored : ∀ frameId, ∀ entry ∈ q.stored frameId, DatagramOf frames entry.2 ∧
    ∃ hdr, storedPacket? entry.2 = some hdr ∧ hdr.frameId = frameId ∧ hdr.pktIndex = entry.1
  ordered : q.entered.Pairwise (· < ·)
  bounded : ∀ frameId ∈ q.entered, frameId.toNat < frames.length
  /-- Of the last frame what was sent and stored is kept. -/
  burst : ∃ done, lastDatagrams frames = done ++ s.burst.sent.toList ++ s.burst.unsent ∧
    (forgotten < frames.length → ∀ d ∈ done, q.Keeps d)
  older : ∀ k x, forgotten ≤ k → k + 1 < frames.length → frames[k]? = some x →
    ∀ d ∈ (x.1.sendFrame x.2).1, q.Keeps d

variable {frames : List (Packetizer × SentFrame)} {forgotten : Nat} {s : VideoHost} {q : FrameQueue}

theorem agrees_init : Agrees [] 0 {} {} := by
  refine ⟨?_, rfl, .init, ?_, .nil, ?_, ⟨[], rfl, ?_⟩, ?_⟩
  · intro k x hx
    cases hx
  · intro frameId entry hentry
    cases hentry
  · intro frameId hmem
    cases hmem
  · intro hlt
    cases hlt
  · intro k x _ hlt
    cases hlt

theorem lastDatagrams_concat (frames : List (Packetizer × SentFrame)) (x : Packetizer × SentFrame) :
    lastDatagrams (frames ++ [x]) = (x.1.sendFrame x.2).1 := by
  unfold lastDatagrams
  rw [List.getLast?_concat]
  rfl

/-- The last frame has the highest number. -/
theorem mem_lastDatagrams {d : Bytes} (h : d ∈ lastDatagrams frames) :
    ∃ x, frames[frames.length - 1]? = some x ∧ 0 < frames.length ∧ d ∈ (x.1.sendFrame x.2).1 := by
  unfold lastDatagrams at h
  cases hlast : frames.getLast? with
  | none =>
    rw [hlast] at h
    cases h
  | some x =>
    rw [hlast] at h
    refine ⟨x, ?_, ?_, h⟩
    · rw [← List.getLast?_eq_getElem?]
      exact hlast
    · refine List.length_pos_iff.mpr ?_
      rintro rfl
      cases hlast

theorem busy_false_iff {b : FrameBurst} : b.busy = false ↔ b.sent = none ∧ b.unsent = [] := by
  unfold FrameBurst.busy
  cases b.sent with
  | none => simp
  | some d => simp

/-- The frame ids are the numbers of the frames. -/
theorem Agrees.toNat_frameId (h : Agrees frames forgotten s q) (hfew : frames.length ≤ 2 ^ 32) {k : Nat}
    {x : Packetizer × SentFrame} (hx : frames[k]? = some x) : x.2.frameId.toNat = k := by
  have hlt := (List.getElem?_eq_some_iff.mp hx).1
  rw [h.numbered k x hx, UInt32.toNat_ofNat']
  exact Nat.mod_eq_of_lt (by omega)

/-- No two frames have one id. -/
theorem Agrees.nodup (h : Agrees frames forgotten s q) (hfew : frames.length ≤ 2 ^ 32) :
    (frames.map fun x => x.2.frameId).Nodup := by
  rw [List.nodup_iff_injective_get]
  intro i j hij
  have hi := List.getElem?_eq_getElem (l := frames) (i := i) (by simpa using i.isLt)
  have hj := List.getElem?_eq_getElem (l := frames) (i := j) (by simpa using j.isLt)
  have hsame : frames[i.1].2.frameId = frames[j.1].2.frameId := by simpa using hij
  have hnat := congrArg UInt32.toNat hsame
  rw [h.toNat_frameId hfew hi, h.toNat_frameId hfew hj] at hnat
  exact Fin.ext hnat

/-! ## Steps -/

/-- A frame is begun. -/
theorem Agrees.encoded (h : Agrees frames forgotten s q)
    (hidle : s.burst.busy = false) (p : Packetizer) (nal : Bytes) (timestampUs : UInt64) (keyframe : Bool)
    (viewers : List UInt64) :
    Agrees (frames ++ [(p, ⟨nal, s.nextFrameId, timestampUs, keyframe⟩)]) forgotten
      { s with
        packetizer := p
        nextFrameId := s.nextFrameId + 1
        burst :=
          { viewers := viewers, unsent := (p.sendFrame ⟨nal, s.nextFrameId, timestampUs, keyframe⟩).1 } } q := by
  -- nothing is under way, so the frame before was sent to its end
  obtain ⟨hsent, hunsent⟩ := busy_false_iff.mp hidle
  obtain ⟨done, hdone, hkept⟩ := h.burst
  rw [hsent, hunsent] at hdone
  have hlast : lastDatagrams frames = done := by simpa using hdone
  have hmore : ∀ {d}, DatagramOf frames d →
      DatagramOf (frames ++ [(p, ⟨nal, s.nextFrameId, timestampUs, keyframe⟩)]) d := by
    rintro d ⟨x, hx, hd⟩
    exact ⟨x, List.mem_append_left _ hx, hd⟩
  refine ⟨?_, ?_, h.mirrors, ?_, h.ordered, ?_, ⟨[], ?_, ?_⟩, ?_⟩
  · intro k x hx
    rcases Nat.lt_trichotomy k frames.length with hold | rfl | hbeyond
    · rw [List.getElem?_append_left hold] at hx
      exact h.numbered k x hx
    · rw [List.getElem?_concat_length] at hx
      obtain rfl := Option.some.inj hx
      exact h.next
    · rw [List.getElem?_eq_none (by rw [List.length_append, List.length_singleton]; omega)] at hx
      cases hx
  · show s.nextFrameId + 1 = _
    rw [h.next, List.length_append, List.length_singleton]
    exact (UInt32.ofNat_add frames.length 1).symm
  · intro frameId entry hentry
    obtain ⟨hdatagram, hhdr⟩ := h.stored frameId entry hentry
    exact ⟨hmore hdatagram, hhdr⟩
  · intro frameId hmem
    have hlt := h.bounded frameId hmem
    rw [List.length_append]
    omega
  · rw [lastDatagrams_concat]
    rfl
  · intro _ d hd
    cases hd
  · intro k x hfrom hlt hx d hd
    rw [List.length_append, List.length_singleton] at hlt
    rw [List.getElem?_append_left (by omega)] at hx
    by_cases hold : k + 1 < frames.length
    · exact h.older k x hfrom hold hx d hd
    · -- the frame before was sent to its end
      have hk : k = frames.length - 1 := by omega
      refine hkept (by omega) d ?_
      rw [← hlast, lastDatagrams, List.getLast?_eq_getElem?, ← hk, hx]
      exact hd

/-- A datagram is sent. -/
theorem Agrees.sendNext (h : Agrees frames forgotten s q) : Agrees frames forgotten s.sendNext.1 q := by
  unfold VideoHost.sendNext
  split
  · next d rest hsent hunsent =>
    obtain ⟨done, hdone, hkept⟩ := h.burst
    refine ⟨h.numbered, h.next, h.mirrors, h.stored, h.ordered, h.bounded, ⟨done, ?_, hkept⟩, h.older⟩
    rw [hdone, hsent, hunsent]
    simp
  · exact h

/-- The datagram that was sent is stored. -/
theorem Agrees.storeNext (h : Agrees frames forgotten s q) (hfew : frames.length ≤ 2 ^ 32) :
    ∃ q', Agrees frames forgotten s.storeNext q' := by
  unfold VideoHost.storeNext
  cases hsent : s.burst.sent with
  | none => exact ⟨q, h⟩
  | some d =>
    obtain ⟨done, hdone, hkept⟩ := h.burst
    have hmirrors : Mirrors (s.retxCache.store d) (q.store d) := h.mirrors.step (.store d)
    have hsplit : lastDatagrams frames = (done ++ [d]) ++ [] ++ s.burst.unsent := by
      rw [hdone, hsent]
      simp
    have hlast : ∀ e ∈ done ++ [d], e ∈ lastDatagrams frames := by
      intro e he
      rw [hsplit]
      exact List.mem_append_left _ (List.mem_append_left _ he)
    obtain ⟨x, hx, hpos, hd⟩ := mem_lastDatagrams (hlast d (by simp))
    have hdone_mem : ∀ e ∈ done, e ∈ (x.1.sendFrame x.2).1 := by
      intro e he
      obtain ⟨y, hy, -, hey⟩ := mem_lastDatagrams (hlast e (List.mem_append_left _ he))
      obtain rfl := Option.some.inj (hx.symm.trans hy)
      exact hey
    refine ⟨q.store d, ?_⟩
    cases hhdr : storedPacket? d with
    | none =>
      have hsame : q.store d = q := by
        unfold FrameQueue.store
        rw [hhdr]
      rw [hsame] at hmirrors ⊢
      refine ⟨h.numbered, h.next, hmirrors, h.stored, h.ordered, h.bounded, ⟨done ++ [d], hsplit, ?_⟩, h.older⟩
      intro hsince e he
      rcases List.mem_append.mp he with hearlier | hlast
      · exact hkept hsince e hearlier
      · obtain rfl := List.mem_singleton.mp hlast
        intro hdr hstored
        rw [hhdr] at hstored
        cases hstored
    | some hdr =>
      obtain ⟨i, hi, -, -, hframe, -⟩ := Packetizer.storedPacket_sendFrame hd hhdr
      have hnat : hdr.frameId.toNat = frames.length - 1 := by
        rw [hframe]
        exact h.toNat_frameId hfew hx
      -- the last frame is in the cache when it has entered
      have hfresh : hdr.frameId ∈ q.entered → hdr.frameId ∈ q.cached := by
        intro hentered
        refine FrameQueue.mem_cached_of_recent h.ordered h.bounded hentered ?_
        rw [hnat]
        unfold kCacheFrames
        omega
      have hdatagram : DatagramOf frames d := ⟨x, List.mem_of_getElem? hx, hd⟩
      have hself := q.keeps_store_self d
      have hkeep : ∀ (e : Bytes) (k : Nat) (y : Packetizer × SentFrame), frames[k]? = some y → e ∈ (y.1.sendFrame y.2).1 →
          q.Keeps e → (q.store d).Keeps e := by
        intro e k y hy he hk
        refine hk.store hhdr ?_ hfresh
        intro hdr' hhdr' hframe' hindex
        obtain ⟨-, -, -, -, hyframe, -⟩ := Packetizer.storedPacket_sendFrame he hhdr'
        have hk' := h.toNat_frameId hfew hy
        rw [← hyframe, hframe', hnat] at hk'
        subst hk'
        obtain rfl := Option.some.inj (hx.symm.trans hy)
        exact Packetizer.eq_of_storedPacket he hd hhdr' hhdr hindex
      have hburst : ∃ done', lastDatagrams frames = done' ++ ([] : List Bytes) ++ s.burst.unsent ∧
          (forgotten < frames.length → ∀ d' ∈ done', (q.store d).Keeps d') := by
        refine ⟨done ++ [d], hsplit, ?_⟩
        intro hsince e he
        rcases List.mem_append.mp he with hearlier | hlast
        · exact hkeep e _ x hx (hdone_mem e hearlier) (hkept hsince e hearlier)
        · obtain rfl := List.mem_singleton.mp hlast
          exact hself
      have holder : ∀ k y, forgotten ≤ k → k + 1 < frames.length → frames[k]? = some y →
          ∀ e ∈ (y.1.sendFrame y.2).1, (q.store d).Keeps e :=
        fun k y hfrom hlt hy e he => hkeep e k y hy he (h.older k y hfrom hlt hy e he)
      have hstored : ∀ (entered : List UInt32) (old : List (UInt16 × Bytes)),
          (∀ entry ∈ old, entry ∈ q.stored hdr.frameId) → ∀ frameId,
          ∀ entry ∈ Function.update q.stored hdr.frameId ((hdr.pktIndex, d) :: old) frameId,
          DatagramOf frames entry.2 ∧ ∃ hdr, storedPacket? entry.2 = some hdr ∧ hdr.frameId = frameId ∧
            hdr.pktIndex = entry.1 := by
        intro _ old hold frameId entry hentry
        by_cases hsame : frameId = hdr.frameId
        · subst hsame
          rw [Function.update_self] at hentry
          rcases List.mem_cons.mp hentry with rfl | hrest
          · exact ⟨hdatagram, hdr, hhdr, rfl, rfl⟩
          · exact h.stored _ entry (hold entry hrest)
        · rw [Function.update_of_ne hsame] at hentry
          exact h.stored frameId entry hentry
      by_cases hcached : hdr.frameId ∈ q.cached
      · have hq := FrameQueue.store_cached hhdr hcached
        refine ⟨h.numbered, h.next, hmirrors, ?_, ?_, ?_, hburst, holder⟩
        · rw [hq]
          exact hstored q.entered _ fun _ hentry => hentry
        · rw [hq]
          exact h.ordered
        · rw [hq]
          exact h.bounded
      · have hq := FrameQueue.store_new hhdr hcached
        have hnew : hdr.frameId ∉ q.entered := fun hentered => hcached (hfresh hentered)
        refine ⟨h.numbered, h.next, hmirrors, ?_, ?_, ?_, hburst, holder⟩
        · rw [hq]
          exact hstored q.entered [] fun _ hentry => absurd hentry List.not_mem_nil
        · rw [hq]
          refine List.pairwise_append.mpr ⟨h.ordered, List.pairwise_singleton _ _, ?_⟩
          intro j hj j' hj'
          obtain rfl := List.mem_singleton.mp hj'
          have hlt := h.bounded j hj
          have hne : j.toNat ≠ hdr.frameId.toNat := fun heq => hnew (UInt32.toNat_inj.mp heq ▸ hj)
          rw [UInt32.lt_iff_toNat_lt]
          omega
        · rw [hq]
          intro frameId hmem
          rcases List.mem_append.mp hmem with hold | hlast
          · exact h.bounded frameId hold
          · obtain rfl := List.mem_singleton.mp hlast
            omega

/-- The viewers are forgotten. -/
theorem Agrees.forgetViewers (h : Agrees frames forgotten s q) : Agrees frames frames.length s.forgetViewers {} := by
  obtain ⟨done, hdone, -⟩ := h.burst
  refine ⟨h.numbered, h.next, h.mirrors.step .reset, ?_, .nil, ?_, ⟨done, hdone, ?_⟩, ?_⟩
  · intro frameId entry hentry
    cases hentry
  · intro frameId hmem
    cases hmem
  · intro hlt
    exact absurd hlt (Nat.lt_irrefl _)
  · intro k x hfrom hlt
    omega

/-- Every input leaves the books in order. -/
theorem Agrees.step (h : Agrees frames forgotten s q) (hfew : frames.length ≤ 2 ^ 32) (input : VideoHostInput) :
    ∃ q', Agrees (frames ++ (s.begins input).toList) (forgets frames forgotten input)
      (videoHost.step s input).1 q' := by
  have hsame : ∀ {s' : VideoHost} {q' : FrameQueue} {n : Nat}, Agrees frames n s' q' →
      ∃ q'', Agrees (frames ++ (none : Option (Packetizer × SentFrame)).toList) n s' q'' := by
    intro s' q' n h'
    refine ⟨q', ?_⟩
    simpa using h'
  cases input with
  | encoded view nal timestampUs keyframe =>
    simp only [begins, forgets, videoHost]
    cases hbusy : s.burst.busy with
    | true => exact hsame h
    | false =>
      rw [if_neg Bool.false_ne_true]
      unfold VideoHost.sendEncodedFrame
      cases hstreaming : view.streaming with
      | false => exact hsame h
      | true =>
        by_cases hviewers : view.viewers = []
        · rw [hviewers]
          exact hsame h
        · have hsome : view.viewers.isEmpty = false := by simpa using hviewers
          rw [hsome]
          simp only [Bool.not_true, Bool.or_false, Bool.false_eq_true, if_false, if_neg hviewers,
            Option.toList_some]
          exact ⟨q, h.encoded hbusy _ nal timestampUs keyframe view.viewers⟩
  | sendNext => exact hsame h.sendNext
  | storeNext =>
    obtain ⟨q', h'⟩ := h.storeNext hfew
    exact hsame h'
  | nack viewerCount frameId indices => exact hsame h
  | forgetViewers => exact hsame h.forgetViewers

end VideoHost

end Deskhub
