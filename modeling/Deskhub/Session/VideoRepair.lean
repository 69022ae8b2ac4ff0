import Deskhub.Session.VideoLink
import Deskhub.Transport.MissingPieces

/-!
# A frame that lost packets is repaired

The round of a repair: the viewer asks for the pieces that its oldest frame lacks, the host answers
from its cache, and the answers bring the frame to its end. The host answers with the pieces that
were asked for and with nothing else, and it has all of them while the frame is one of the last. It
does not matter in what order the answers come, or how often, or what the host sends in between.
-/

namespace Deskhub

namespace VideoLink

/-- The frame `x`, the host's `k`th, was sent to its end, to the viewers of today, and is one of the last. -/
structure CanResend (w : VideoLink) (k : Nat) (x : Packetizer × SentFrame) : Prop where
  there : w.frames[k]? = some x
  nal : x.2.nal ≠ []
  small : packetCount x.2.nal ≤ 0xFFFF
  since : w.forgotten ≤ k
  recent : w.frames.length ≤ k + kCacheFrames
  ended : k + 1 < w.frames.length ∨ w.host.burst.busy = false

end VideoLink

/-! ## The host's answers -/

namespace VideoHost

variable {w : VideoLink} {q : FrameQueue} {k : Nat} {x : Packetizer × SentFrame}

/-- All that was sent of the frame is kept. -/
theorem Agrees.keeps (h : Agrees w.frames w.forgotten w.host q) (hcan : w.CanResend k x) {d : Bytes}
    (hd : d ∈ (x.1.sendFrame x.2).1) : q.Keeps d := by
  have hlt := (List.getElem?_eq_some_iff.mp hcan.there).1
  by_cases hlast : k + 1 < w.frames.length
  · exact h.older k x hcan.since hlast hcan.there d hd
  · -- the last frame, with nothing of it left to send
    obtain ⟨hsent, hunsent⟩ := busy_false_iff.mp (hcan.ended.resolve_left hlast)
    obtain ⟨done, hdone, hkept⟩ := h.burst
    rw [hsent, hunsent] at hdone
    have hdatagrams : lastDatagrams w.frames = (x.1.sendFrame x.2).1 := by
      have hk : w.frames.length - 1 = k := by omega
      unfold lastDatagrams
      rw [List.getLast?_eq_getElem?, hk, hcan.there]
      rfl
    refine hkept (lt_of_le_of_lt hcan.since hlt) d ?_
    have hmem : d ∈ lastDatagrams w.frames := hdatagrams ▸ hd
    simpa [hdone] using hmem

/-- A piece of the frame is found in the cache as it was sent. -/
theorem Agrees.find_piece (h : Agrees w.frames w.forgotten w.host q) (hfew : w.frames.length ≤ 2 ^ 32)
    (hcan : w.CanResend k x) {i : Nat} (hi : i < packetCount x.2.nal) {d : Bytes}
    (hd : x.1.videoDatagram x.2 i = some d) :
    w.host.retxCache.find x.2.frameId (UInt16.ofNat i) = d := by
  have hkeeps := h.keeps hcan (Packetizer.mem_sendFrame hcan.nal hcan.small hi hd)
  obtain ⟨hentered, hlatest⟩ := hkeeps _ (Packetizer.storedPacket_videoDatagram hi hcan.small hd)
  have hcached : x.2.frameId ∈ q.cached := by
    refine FrameQueue.mem_cached_of_recent h.ordered h.bounded hentered ?_
    rw [h.toNat_frameId hfew hcan.there]
    exact hcan.recent
  rw [h.mirrors.find_eq]
  unfold FrameQueue.find
  rw [if_pos hcached]
  dsimp only at hlatest
  rw [hlatest]
  rfl

/-- The host answers for the pieces that are asked for, and for no others. -/
theorem Agrees.answer_mem {frames : List (Packetizer × SentFrame)} {forgotten : Nat} {s : VideoHost}
    (h : Agrees frames forgotten s q) {viewerCount : Nat} {frameId : UInt32} {indices : List UInt16}
    {e : VideoHostEvent} (he : e ∈ s.respondToNack viewerCount frameId indices) :
    ∃ x ∈ frames, x.2.frameId = frameId ∧ ∃ i < packetCount x.2.nal, UInt16.ofNat i ∈ indices ∧
      ∃ d, x.1.videoDatagram x.2 i = some d ∧ e = .sendToRequester d := by
  unfold respondToNack at he
  split at he
  · cases he
  · obtain ⟨d, hd, rfl⟩ := List.mem_map.mp he
    obtain ⟨hmem, hsome⟩ := List.mem_filter.mp hd
    obtain ⟨idx, hidx, rfl⟩ := List.mem_map.mp hmem
    -- what the cache finds was stored for the packet that was asked for
    obtain ⟨⟨x, hx, hsent⟩, hdr, hhdr, hframe, hindex⟩ := VideoLink.find_datagramOf h (by simpa using hsome)
    obtain ⟨i, hi, -, hdatagram, hframe', hindex'⟩ := Packetizer.storedPacket_sendFrame hsent hhdr
    refine ⟨x, hx, hframe'.symm.trans hframe, i, hi, ?_, _, hdatagram, rfl⟩
    rw [← hindex', hindex]
    exact hidx

/-- It answers for all of them. -/
theorem Agrees.answer_eq (h : Agrees w.frames w.forgotten w.host q) (hfew : w.frames.length ≤ 2 ^ 32)
    (hcan : w.CanResend k x) {viewerCount : Nat} (hviewers : viewerCount ≠ 0) {indices : List Nat}
    (hindices : ∀ i ∈ indices, i < packetCount x.2.nal) :
    (w.host.respondToNack viewerCount x.2.frameId (indices.map UInt16.ofNat)).map (some ∘ VideoHostEvent.datagram) =
      indices.map (x.1.videoDatagram x.2) := by
  unfold respondToNack
  rw [if_neg hviewers, List.map_map, List.map_map]
  induction indices with
  | nil => rfl
  | cons i indices ih =>
    have hi := hindices i List.mem_cons_self
    obtain ⟨d, hd⟩ := x.1.videoDatagram_some x.2 i
    have hfound := h.find_piece hfew hcan hi hd
    have hsome : d ≠ [] := by
      rintro rfl
      cases Packetizer.storedPacket_videoDatagram hi hcan.small hd
    have hrest := ih fun j hj => hindices j (List.mem_cons_of_mem _ hj)
    simp only [List.map_cons, Function.comp_apply, hfound, hd]
    rw [List.filter_cons_of_pos (by simpa using hsome), List.map_cons]
    exact congrArg (some d :: ·) hrest

end VideoHost

/-! ## The viewer takes the answers -/

/-- A video datagram bears the session of its packetizer. -/
theorem Packetizer.sessionId_videoDatagram {p : Packetizer} {f : SentFrame} {i : Nat} {d : Bytes}
    {hdr : CommonHeader} (hd : p.videoDatagram f i = some d) (hparse : parseCommonHeader d = some hdr) :
    hdr.sessionId = p.sessionId := by
  unfold videoDatagram buildVideoPacket at hd
  dsimp only at hd
  split at hd
  · cases hd
  · have hwritten := parseCommonHeader_writeCommon (by decide) (fun b => by simp) hd
    obtain rfl := Option.some.inj (hparse.symm.trans hwritten)
    rfl

namespace ScreenClient

/-- The oldest frame of the viewer is `x`, first seen at `firstSeenUs`, and has the pieces `got`. -/
structure Repairing (x : Packetizer × SentFrame) (firstSeenUs : UInt64) (got : List Nat) (s : ScreenClient) :
    Prop where
  session : s.session.inSession x.1.sessionId = true
  oldest : ∃ r p, s.reasm = some r ∧ r.pending.first? = some (x.2.frameId, p) ∧
    r.refuses x.2.frameId = false ∧ (r.waitingForIdr = true → x.2.idr = true) ∧
    p.firstSeenUs = firstSeenUs ∧ PartOf x.2 p ∧ Recovered x.2 p ∧ ∀ i ∈ got, p.pieceAt i ≠ []

variable {x : Packetizer × SentFrame} {firstSeenUs : UInt64} {got : List Nat} {s : ScreenClient}

theorem inSession_notifyVideoPacket (s : ScreenClientSession) (nowUs : UInt64) (sessionId : UInt32) :
    (s.notifyVideoPacket nowUs).inSession sessionId = s.inSession sessionId := by
  unfold ScreenClientSession.notifyVideoPacket
  dsimp only
  split
  · rfl
  · split
    · rfl
    · rfl

/-- A piece that comes is put in its place, and leaves the others in theirs. -/
theorem Repairing.deliver (h : Repairing x firstSeenUs got s) (hsmall : packetCount x.2.nal ≤ 0xFFFF)
    {i : Nat} (hi : i < packetCount x.2.nal) {d : Bytes} (hd : x.1.videoDatagram x.2 i = some d) (nowUs : UInt64) :
    Repairing x firstSeenUs (i :: got) (s.onDatagram d nowUs).1 := by
  obtain ⟨r, p, hreasm, hfirst, hfree, hkey, hseen, hpart, hrecovered, hgot⟩ := h.oldest
  have hlt : UInt16.ofNat i < UInt16.ofNat (packetCount x.2.nal) := by
    rw [UInt16.lt_iff_toNat_lt, toNat_ofNat_u16 (by omega), toNat_ofNat_u16 hsmall]
    exact hi
  obtain ⟨hdr, hparse, htype, hchan, hview⟩ := parseVideoPacket_build hlt hd
  obtain ⟨v, hv⟩ : ∃ v : VideoPacketView, v =
    ⟨⟨x.2.frameId, x.2.timestampUs, UInt16.ofNat i, UInt16.ofNat (packetCount x.2.nal)⟩, x.2.idr,
      decide (i + 1 = packetCount x.2.nal), piece x.2.nal i⟩ := ⟨_, rfl⟩
  rw [← hv] at hview
  have hpiece : PieceOf x.2 v i := by
    subst hv
    exact ⟨hi, hsmall, rfl, rfl, rfl⟩
  have hsession : s.session.inSession hdr.sessionId = true := by
    rw [Packetizer.sessionId_videoDatagram hd hparse]
    exact h.session
  -- the packet goes to the reassembler, and there to the oldest frame
  have hsome : v.payload ≠ [] := by
    rw [hpiece.payload]
    exact piece_ne_nil hi
  have hframe : v.hdr.frameId = x.2.frameId := by rw [hpiece.hdr]
  have hfind : r.pending.find? v.hdr.frameId = some p :=
    hframe ▸ OrdMap.Map.find?_eq_some.mpr (OrdMap.Map.first?_mem hfirst)
  have hcount : p.pktCount = v.hdr.pktCount := by
    rw [hpiece.hdr, ← UInt16.toNat_inj, hpart.count]
    exact (toNat_ofNat_u16 hsmall).symm
  obtain ⟨hpending, hbarrier, hwaiting, -⟩ :=
    Reassembler.push_there nowUs hsome (hframe ▸ hfree) hfind hcount
  have hafter : (s.onDatagram d nowUs).1 =
      { s with session := s.session.notifyVideoPacket nowUs, reasm := some (r.push v nowUs).1 } := by
    have hensure : s.ensureReassembler = r := by
      unfold ensureReassembler
      rw [hreasm]
    have hnotFec : hdr.type ≠ .fecPacket := by
      rw [htype]
      decide
    unfold onDatagram
    rw [hparse]
    dsimp only
    rw [if_neg (by rw [hchan]; decide), if_neg (by rw [hchan]; decide)]
    unfold onVideo
    rw [if_neg (by rw [hsession]; decide), hensure]
    dsimp only
    rw [if_neg hnotFec, hview]
    exact (withReassembler_eq _ _).1
  rw [hafter]
  have hnoted := hpart.notes p.maxIndexSeen nowUs p.lastNackUs
  have hgrown := Pending.grown_accept { p with lastPushUs := nowUs } v
  obtain ⟨hpart', hrecovered'⟩ := hnoted.accept hrecovered hpiece
  obtain ⟨hthere, hkeeps⟩ := hnoted.accept_fills hpiece
  constructor
  · exact (inSession_notifyVideoPacket s.session nowUs x.1.sessionId).trans h.session
  · refine ⟨_, _, rfl, ?_, ?_, ?_, hgrown.firstSeenUs.trans hseen, hpart', hrecovered', ?_⟩
    · rw [hpending, hframe]
      exact OrdMap.Map.first?_insert_first hfirst _
    · rw [Reassembler.refuses_congr hbarrier]
      exact hfree
    · rw [hwaiting]
      exact hkey
    · intro j hj
      rcases List.mem_cons.mp hj with rfl | hold
      · exact hthere
      · exact hkeeps j (hgot j hold)

/-- With all its pieces there the frame is handed over. -/
theorem Repairing.pollFrames (h : Repairing x firstSeenUs got s) (hnal : x.2.nal ≠ [])
    (hfull : ∀ i < packetCount x.2.nal, i ∈ got) (nowUs : UInt64) :
    .frame ⟨x.2.frameId, x.2.timestampUs, x.2.idr, firstSeenUs, x.2.nal⟩ ∈ (s.pollFrames nowUs).2 := by
  obtain ⟨r, p, hreasm, hfirst, -, hkey, hseen, hpart, -, hgot⟩ := h.oldest
  have hcomplete := hpart.complete_of_full hnal fun i hi => hgot i (hfull i hi)
  obtain ⟨hbytes, hidr, htimestamp⟩ := hpart.complete hcomplete
  have hpop := Reassembler.popReady_first nowUs hfirst hcomplete fun hwaits => hidr.trans (hkey hwaits)
  rw [hseen, hbytes, hidr, htimestamp] at hpop
  have hsize := OrdMap.Map.size_erase_first hfirst
  unfold ScreenClient.pollFrames
  rw [hreasm]
  dsimp only
  rw [← hsize]
  unfold popFrames
  rw [hreasm]
  dsimp only
  rw [hpop]
  exact List.mem_append_right _ List.mem_cons_self

end ScreenClient

/-! ## The round -/

namespace VideoLink

/-- What happens while the answers come: the host goes on, and its `n`th datagrams come that are asked for. -/
def Answers (first last : Nat) : VideoLinkInput → Prop
  | .host _ => True
  | .viewer _ => False
  | .deliver n _ => first ≤ n ∧ n < last

variable {w : VideoLink} {out : List ScreenCallback} {x : Packetizer × SentFrame} {firstSeenUs : UInt64}
  {got asked : List Nat} {before : List Bytes}

/-- The datagrams from `before` on are the pieces `asked` of the frame. -/
def SentPieces (before : List Bytes) (x : Packetizer × SentFrame) (asked : List Nat) (sent : List Bytes) : Prop :=
  ∀ j i, asked[j]? = some i → ∃ d, sent[before.length + j]? = some d ∧ x.1.videoDatagram x.2 i = some d

/-- While the answers come, the pieces that have come stay, and those that come are added. -/
theorem run_repairing (later : List VideoLinkInput) (hsmall : packetCount x.2.nal ≤ 0xFFFF)
    (hasked : ∀ i ∈ asked, i < packetCount x.2.nal)
    (hlater : ∀ input ∈ later, Answers before.length (before.length + asked.length) input)
    (hsent : SentPieces before x asked w.sent) (h : w.viewer.Repairing x firstSeenUs got) :
    ∃ got', (videoLink.run w later).1.viewer.Repairing x firstSeenUs got' ∧ (∀ i ∈ got, i ∈ got') ∧
      ∀ j i nowUs, asked[j]? = some i → .deliver (before.length + j) nowUs ∈ later → i ∈ got' := by
  induction later generalizing w got with
  | nil => exact ⟨got, h, fun i hi => hi, nofun⟩
  | cons input later ih =>
    have hrest : ∀ input ∈ later, Answers before.length (before.length + asked.length) input := fun input hmem =>
      hlater input (List.mem_cons_of_mem _ hmem)
    have hinput := hlater input List.mem_cons_self
    rw [Machine.run_cons]
    dsimp only
    cases input with
    | viewer input => exact hinput.elim
    | host input =>
      -- the viewer is left alone, and what was sent stays sent
      have hsent' : SentPieces before x asked (w.hostStep input).sent := by
        intro j i hi
        obtain ⟨d, hd, hpiece⟩ := hsent j i hi
        have hlt := (List.getElem?_eq_some_iff.mp hd).1
        exact ⟨d, (List.getElem?_append_left hlt).trans hd, hpiece⟩
      obtain ⟨got', h', hkept, hnew⟩ := ih (w := w.hostStep input) hrest hsent' h
      refine ⟨got', h', hkept, ?_⟩
      intro j i nowUs hi hmem
      rcases List.mem_cons.mp hmem with hhead | htail
      · cases hhead
      · exact hnew j i nowUs hi htail
    | deliver n nowUs =>
      obtain ⟨hfirst, hlast⟩ := hinput
      obtain ⟨j, rfl⟩ := Nat.exists_eq_add_of_le hfirst
      have hj : j < asked.length := by omega
      have hi : asked[j]? = some asked[j] := List.getElem?_eq_getElem hj
      obtain ⟨d, hd, hpiece⟩ := hsent j _ hi
      have hstep : (videoLink.step w (.deliver (before.length + j) nowUs)).1 =
          { w with viewer := (w.viewer.onDatagram d nowUs).1 } := by
        simp only [videoLink, hd]
        rfl
      rw [hstep]
      have hnext := h.deliver hsmall (hasked _ (List.getElem_mem hj)) hpiece nowUs
      obtain ⟨got', h', hkept, hnew⟩ :=
        ih (w := { w with viewer := (w.viewer.onDatagram d nowUs).1 }) hrest hsent hnext
      refine ⟨got', h', fun i hold => hkept i (List.mem_cons_of_mem _ hold), ?_⟩
      intro j' i' nowUs' hi' hmem
      rcases List.mem_cons.mp hmem with hhead | htail
      · injection hhead with hn
        obtain rfl : j' = j := by omega
        obtain rfl := Option.some.inj (hi'.symm.trans hi)
        exact hkept _ List.mem_cons_self
      · exact hnew j' i' nowUs' hi' htail

/-- The viewer lacks pieces of the frame `x`, its oldest, of which it has `f`; it is time to ask for them, and
one message has room for all. -/
structure Lacks (w : VideoLink) (x : Packetizer × SentFrame) (f : Pending) (nowUs : UInt64) : Prop where
  session : w.viewer.session.inSession x.1.sessionId = true
  streaming : w.viewer.session.state = .streaming
  sendNacks : w.viewer.cfg.sendNacks = true
  due : ∃ r, w.viewer.reasm = some r ∧ r.NackDue nowUs w.viewer.minRttUs.toUInt64 x.2.frameId f ∧
    r.refuses x.2.frameId = false ∧ (r.waitingForIdr = true → x.2.idr = true)
  room : f.missing.length ≤ kNackBatchMax

/-- The oldest frame of the viewer is the host's. -/
theorem Inv.holds {k : Nat} (h : Inv w out) (hfew : w.frames.length ≤ 2 ^ 32) (hx : w.frames[k]? = some x)
    {r : Reassembler} {f : Pending} (hreasm : w.viewer.reasm = some r)
    (hfirst : r.pending.first? = some (x.2.frameId, f)) : PartOf x.2 f ∧ Recovered x.2 f := by
  obtain ⟨y, hy, hid, hpart⟩ := h.viewer r hreasm _ f (OrdMap.Map.first?_mem hfirst)
  obtain rfl := List.inj_on_of_nodup_map (h.few hfew) hy (List.mem_of_getElem? hx) hid
  exact hpart

/-- The viewer asks for all that is missing. -/
theorem Lacks.asks {f : Pending} {nowUs : UInt64} (h : w.Lacks x f nowUs) (hsome : f.missing ≠ [])
    (hpart : PartOf x.2 f) (hrecovered : Recovered x.2 f) :
    ∃ packet, (w.viewer.planNacks nowUs).2 = [.send packet] ∧
      parseCommonHeader packet = some ⟨kProtocolVersion, .nack, 0, .control, x.1.sessionId⟩ ∧
      parseNack (payloadOf packet) kMaxNackIndices = some (x.2.frameId, f.missing.map UInt16.ofNat) ∧
      (w.viewer.planNacks nowUs).1.Repairing x f.firstSeenUs
        ((List.range (packetCount x.2.nal)).filter fun i => f.pieceAt i ≠ []) := by
  obtain ⟨r, hreasm, hdue, hfree, hkey⟩ := h.due
  have hplan := hdue.planNack hsome h.room
  have hsession : w.viewer.session.sessionId = x.1.sessionId := by
    have hsame := h.session
    unfold ScreenClientSession.inSession at hsame
    rw [Bool.and_eq_true, decide_eq_true_eq] at hsame
    exact hsame.1.symm
  -- the message fits
  have hindices : f.missing.map UInt16.ofNat ≠ [] := by simpa using hsome
  have hroom : (f.missing.map UInt16.ofNat).length ≤ 64 := by
    rw [List.length_map]
    exact h.room
  have hmax : kMaxNackIndices = 255 := rfl
  obtain ⟨packet, hpacket⟩ : ∃ packet,
      buildNack kMaxDatagram x.1.sessionId x.2.frameId (f.missing.map UInt16.ofNat) = some packet := by
    have hflat : ((f.missing.map UInt16.ofNat).map putU16).flatten.length =
        (f.missing.map UInt16.ofNat).length * 2 := by
      simp [List.length_flatten, Function.comp_def]
    have hdatagram : kMaxDatagram = 1200 := rfl
    have hheader : kCommonHeaderSize = 8 := rfl
    unfold buildNack writeCommon
    rw [if_neg (by rw [not_or]; exact ⟨hindices, by omega⟩), if_neg]
    · exact ⟨_, rfl⟩
    · rw [List.length_append, List.length_append, hflat, length_putU32, List.length_singleton]
      omega
  have hcall : w.viewer.planNacks nowUs =
      ({ w.viewer with reasm := some (r.store x.2.frameId { f with lastNackUs := nowUs }) }, [.send packet]) := by
    unfold ScreenClient.planNacks
    rw [h.sendNacks, hreasm, if_neg (by decide)]
    dsimp only
    rw [hplan]
    dsimp only
    unfold ScreenClientSession.sendNack
    rw [if_neg (by rw [not_or]; exact ⟨not_not.mpr h.streaming, hindices⟩), hsession, hpacket]
    rfl
  rw [hcall]
  refine ⟨packet, rfl, ?_, ?_, h.session, _, ({ f with lastNackUs := nowUs } : Pending), rfl, ?_, ?_, hkey, rfl,
    hpart.notes f.maxIndexSeen f.lastPushUs nowUs, hrecovered, ?_⟩
  · unfold buildNack at hpacket
    rw [Option.ite_none_left_eq_some] at hpacket
    exact parseCommonHeader_writeCommon (by decide) (fun b => by simp) hpacket.2
  · unfold buildNack at hpacket
    rw [Option.ite_none_left_eq_some] at hpacket
    rw [payloadOf_writeCommon hpacket.2]
    exact parseNack_payload _ hindices (by omega) (by omega)
  · exact OrdMap.Map.first?_insert_first hdue.oldest _
  · exact hfree
  · intro i hi
    have hthere := (List.mem_filter.mp hi).2
    rwa [decide_eq_true_eq] at hthere

/-- The host sends all that was asked for. -/
theorem sent_of_nack {w : VideoLink} {q : FrameQueue} (h : VideoHost.Agrees w.frames w.forgotten w.host q)
    (hfew : w.frames.length ≤ 2 ^ 32) {k : Nat} (hcan : w.CanResend k x) {viewerCount : Nat}
    (hviewers : viewerCount ≠ 0) (hasked : ∀ i ∈ asked, i < packetCount x.2.nal) :
    SentPieces w.sent x asked (w.hostStep (.nack viewerCount x.2.frameId (asked.map UInt16.ofNat))).sent ∧
      (w.hostStep (.nack viewerCount x.2.frameId (asked.map UInt16.ofNat))).sent.length =
        w.sent.length + asked.length := by
  have hanswer := h.answer_eq hfew hcan hviewers hasked
  have hsent : (w.hostStep (.nack viewerCount x.2.frameId (asked.map UInt16.ofNat))).sent = w.sent ++
    (w.host.respondToNack viewerCount x.2.frameId (asked.map UInt16.ofNat)).map VideoHostEvent.datagram := rfl
  rw [hsent]
  constructor
  · intro j i hi
    have hat := congrArg (fun l => l[j]?) hanswer
    simp only [List.getElem?_map, hi, Option.map_some] at hat
    obtain ⟨e, he, hpiece⟩ := Option.map_eq_some_iff.mp hat
    refine ⟨e.datagram, ?_, hpiece.symm⟩
    rw [List.getElem?_append_right (Nat.le_add_right _ _), Nat.add_sub_cancel_left, List.getElem?_map, he]
    rfl
  · have hlength := congrArg List.length hanswer
    rw [List.length_map, List.length_map] at hlength
    rw [List.length_append, List.length_map, hlength]

end VideoLink

open VideoLink in
/-- In every run and for every request, the host answers with the pieces that are asked for, of the frame that
is asked for, and with nothing else; and of a frame that was sent to its end to the viewers of today and is one
of the last, it answers with every piece that is asked for. -/
theorem videoLink_answers (inputs : List VideoLinkInput)
    (hfew : (videoLink.run {} inputs).1.frames.length ≤ 2 ^ 32) (viewerCount : Nat) (frameId : UInt32)
    (indices : List UInt16) :
    let w := (videoLink.run {} inputs).1
    let answer := (videoHost.step w.host (.nack viewerCount frameId indices)).2
    (∀ e ∈ answer, ∃ x ∈ w.frames, x.2.frameId = frameId ∧ ∃ i < packetCount x.2.nal,
        UInt16.ofNat i ∈ indices ∧ ∃ d, x.1.videoDatagram x.2 i = some d ∧ e = .sendToRequester d) ∧
      ∀ k x, w.CanResend k x → x.2.frameId = frameId → viewerCount ≠ 0 →
        (∀ idx ∈ indices, idx.toNat < packetCount x.2.nal) →
        answer.map (some ∘ VideoHostEvent.datagram) = indices.map fun idx => x.1.videoDatagram x.2 idx.toNat := by
  intro w answer
  obtain ⟨q, hq⟩ := (run_inv inputs hfew).host
  constructor
  · intro e he
    exact hq.answer_mem he
  · rintro k x hcan rfl hviewers hindices
    have hbelow : ∀ i ∈ indices.map UInt16.toNat, i < packetCount x.2.nal := by simpa using hindices
    have hall := hq.answer_eq hfew hcan hviewers hbelow
    rw [List.map_map, List.map_map] at hall
    have hsame : indices.map (UInt16.ofNat ∘ UInt16.toNat) = indices := by simp [Function.comp_def]
    rw [hsame] at hall
    exact hall

open VideoLink in
/-- A round of repair brings the frame. When it is time the viewer asks for all that its oldest frame lacks,
and if the host can send it again, the viewer hands the frame to its decoder exactly as it was encoded once
the answers are there: in whatever order they come, however often, and whatever the host sends meanwhile. -/
theorem videoLink_repairs (inputs : List VideoLinkInput)
    (hfew : (videoLink.run {} inputs).1.frames.length ≤ 2 ^ 32) {k : Nat} {x : Packetizer × SentFrame}
    {f : Pending} {askedUs : UInt64} (hcan : (videoLink.run {} inputs).1.CanResend k x)
    (hlacks : (videoLink.run {} inputs).1.Lacks x f askedUs) {viewerCount : Nat} (hviewers : viewerCount ≠ 0) :
    let w := (videoLink.run {} inputs).1
    let asking := (videoLink.step w (.viewer (.planNacks askedUs))).1
    let indices := f.missing.map UInt16.ofNat
    let answered := (videoLink.step asking (.host (.nack viewerCount x.2.frameId indices))).1
    (∃ packet, (videoLink.step w (.viewer (.planNacks askedUs))).2 = [.send packet] ∧
        parseCommonHeader packet = some ⟨kProtocolVersion, .nack, 0, .control, x.1.sessionId⟩ ∧
        parseNack (payloadOf packet) kMaxNackIndices = some (x.2.frameId, indices)) ∧
      ∀ (later : List VideoLinkInput) (nowUs : UInt64),
        (∀ input ∈ later, Answers w.sent.length answered.sent.length input) →
        (∀ n, w.sent.length ≤ n → n < answered.sent.length → ∃ t, .deliver n t ∈ later) →
        .frame ⟨x.2.frameId, x.2.timestampUs, x.2.idr, f.firstSeenUs, x.2.nal⟩ ∈
          (videoLink.step (videoLink.run answered later).1 (.viewer (.pollFrames nowUs))).2 := by
  intro w asking indices answered
  have hinv := run_inv inputs hfew
  obtain ⟨q, hq⟩ := hinv.host
  obtain ⟨r, hreasm, hdue, -⟩ := hlacks.due
  obtain ⟨hpart, hrecovered⟩ := hinv.holds hfew hcan.there hreasm hdue.oldest
  have hsome := hpart.missing_ne_nil hcan.nal hdue.incomplete
  obtain ⟨packet, hpacket, hheader, hparse, hrepairing⟩ := hlacks.asks hsome hpart hrecovered
  refine ⟨⟨packet, hpacket, hheader, hparse⟩, ?_⟩
  intro later nowUs honly hall
  have hbelow : ∀ i ∈ f.missing, i < packetCount x.2.nal := by
    intro i hi
    have hrange := List.mem_range.mp (List.mem_filter.mp hi).1
    rwa [hpart.count] at hrange
  -- the host has sent what was asked for behind what it had sent before
  have hqs : VideoHost.Agrees asking.frames asking.forgotten asking.host q := hq
  have hcans : asking.CanResend k x := ⟨hcan.there, hcan.nal, hcan.small, hcan.since, hcan.recent, hcan.ended⟩
  obtain ⟨hsent, hlength⟩ := sent_of_nack hqs hfew hcans hviewers hbelow
  have honly' : ∀ input ∈ later, Answers w.sent.length (w.sent.length + f.missing.length) input := by
    intro input hinput
    rw [← show answered.sent.length = w.sent.length + f.missing.length from hlength]
    exact honly input hinput
  obtain ⟨got, hgot, hkept, hnew⟩ := run_repairing later hcan.small hbelow honly' hsent
    (show answered.viewer.Repairing x f.firstSeenUs _ from hrepairing)
  refine hgot.pollFrames hcan.nal ?_ nowUs
  intro i hi
  by_cases hthere : f.pieceAt i = []
  · -- a piece that was missing has come
    have hmissing : i ∈ f.missing :=
      List.mem_filter.mpr ⟨List.mem_range.mpr (hpart.count ▸ hi), by simpa using hthere⟩
    obtain ⟨j, hj⟩ := List.getElem?_of_mem hmissing
    have hlt := (List.getElem?_eq_some_iff.mp hj).1
    obtain ⟨t, ht⟩ := hall (w.sent.length + j) (Nat.le_add_right _ _) (by
      rw [show answered.sent.length = w.sent.length + f.missing.length from hlength]
      omega)
    exact hnew j i t hj ht
  · exact hkept i (List.mem_filter.mpr ⟨List.mem_range.mpr hi, by simpa using hthere⟩)

/-- A keyframe of two pieces, of which the second is lost. -/
def lostPieceInputs : List VideoLinkInput :=
  let ack := (buildHelloAck kMaxDatagram ⟨7, 640, 480, 30, 1000000, false, .none⟩).getD []
  [.viewer (.start { sendNacks := true } 0), .viewer (.onDatagram ack 10),
    .host (.encoded ⟨true, 7, [1], false⟩ (List.replicate 1200 5) 9 true), .host .sendNext, .host .storeNext,
    .host .sendNext, .host .storeNext, .deliver 0 1000]

/-- What the viewer has of it. -/
def lostPieceFrame : Pending where
  pieces := [List.replicate 1174 5, []]
  pktCount := 2
  received := 1
  timestampUs := 9
  idr := true
  firstSeenUs := 1000
  lastPushUs := 1000
  bytes := 1174

theorem lostPiece_canResend : (videoLink.run {} lostPieceInputs).1.CanResend 0
    (⟨7, false⟩, ⟨List.replicate 1200 5, 0, 9, true⟩) :=
  ⟨by decide +kernel, by decide +kernel, by decide +kernel, by decide +kernel, by decide +kernel,
    .inr (by decide +kernel)⟩

theorem videoLink_answers_lostPiece :
    let w := (videoLink.run {} lostPieceInputs).1
    let answer := (videoHost.step w.host (.nack 1 0 [1, 0])).2
    answer.map (some ∘ VideoHostEvent.datagram) = [1, 0].map fun idx : UInt16 =>
      (⟨7, false⟩ : Packetizer).videoDatagram ⟨List.replicate 1200 5, 0, 9, true⟩ idx.toNat := by
  have hanswer := (videoLink_answers lostPieceInputs (by decide +kernel) 1 0 [1, 0]).2 0 _ lostPiece_canResend
  have hpieces : ∀ idx ∈ ([1, 0] : List UInt16), idx.toNat < 2 := by simp
  have hcount : packetCount (List.replicate 1200 5) = 2 := by
    unfold packetCount
    rw [List.length_replicate]
    rfl
  dsimp only at hanswer ⊢
  rw [hcount] at hanswer
  exact hanswer rfl Nat.one_ne_zero hpieces

theorem videoLink_repairs_lostPiece :
    let w := (videoLink.run {} lostPieceInputs).1
    let asking := (videoLink.step w (.viewer (.planNacks 40000))).1
    let answered := (videoLink.step asking (.host (.nack 1 0 [1]))).1
    .frame ⟨0, 9, true, 1000, List.replicate 1200 5⟩ ∈
      (videoLink.step (videoLink.run answered [.host .forgetViewers, .deliver 2 41000, .deliver 2 41000]).1
        (.viewer (.pollFrames 42000))).2 := by
  have hlacks : (videoLink.run {} lostPieceInputs).1.Lacks
      (⟨7, false⟩, ⟨List.replicate 1200 5, 0, 9, true⟩) lostPieceFrame 40000 := by
    refine ⟨by decide +kernel, by decide +kernel, by decide +kernel,
      ⟨(videoLink.run {} lostPieceInputs).1.viewer.reasm.getD {}, by decide +kernel, ?_, by decide +kernel,
        by decide +kernel⟩, by decide +kernel⟩
    exact ⟨by decide +kernel, by decide +kernel, by decide +kernel, by decide +kernel, by decide +kernel,
      by decide +kernel⟩
  have hmissing : lostPieceFrame.missing.map UInt16.ofNat = [1] := by decide +kernel
  have hround := (videoLink_repairs lostPieceInputs (by decide +kernel) lostPiece_canResend hlacks
    Nat.one_ne_zero).2
    [.host .forgetViewers, .deliver 2 41000, .deliver 2 41000] 42000
  have hseen : lostPieceFrame.firstSeenUs = 1000 := rfl
  rw [hmissing, hseen] at hround
  dsimp only at hround ⊢
  refine hround ?_ ?_
  · have hsent : (videoLink.run {} lostPieceInputs).1.sent.length ≤ 2 := by decide +kernel
    intro input hinput
    simp only [List.mem_cons, List.not_mem_nil, or_false] at hinput
    have hlast : 2 < (videoLink.step (videoLink.step (videoLink.run {} lostPieceInputs).1
        (.viewer (.planNacks 40000))).1 (.host (.nack 1 0 [1]))).1.sent.length := by decide +kernel
    rcases hinput with rfl | rfl | rfl
    · exact trivial
    · exact ⟨hsent, hlast⟩
    · exact ⟨hsent, hlast⟩
  · have hsent : 2 ≤ (videoLink.run {} lostPieceInputs).1.sent.length := by decide +kernel
    have hlast : (videoLink.step (videoLink.step (videoLink.run {} lostPieceInputs).1
        (.viewer (.planNacks 40000))).1 (.host (.nack 1 0 [1]))).1.sent.length ≤ 3 := by decide +kernel
    intro n hfrom hto
    obtain rfl : n = 2 := by
      have hbefore := Nat.lt_of_lt_of_le hto hlast
      omega
    exact ⟨41000, List.mem_cons_of_mem _ List.mem_cons_self⟩

end Deskhub
