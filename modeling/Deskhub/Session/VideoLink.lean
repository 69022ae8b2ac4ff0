import Deskhub.Session.ScreenClientFrames
import Deskhub.Session.VideoHost

/-!
# Video from the host to a viewer

A host, a viewer and the network between them. The host sends frames, answers requests and forgets
its viewers; the network brings each of its datagrams at any time, as often as it likes, or never;
the viewer is started, polled and started again. Whatever else reaches the viewer is no video of
its session, for that comes from the host alone.
-/

namespace Deskhub

open OrdMap

structure VideoLink where
  viewer : ScreenClient := {}
  host : VideoHost := {}
  /-- The frames that the host began, each with the packetizer as it was then. -/
  frames : List (Packetizer × SentFrame) := []
  /-- How many of them before its viewers were last forgotten. -/
  forgotten : Nat := 0
  /-- The datagrams of the host, sent for the first time or again. -/
  sent : List Bytes := []

inductive VideoLinkInput where
  | host (input : VideoHostInput)
  | viewer (input : ScreenClientInput)
  /-- The host's `n`th datagram reaches the viewer. -/
  | deliver (n : Nat) (nowUs : UInt64)

namespace VideoHostEvent

def datagram : VideoHostEvent → Bytes
  | .sendTo _ d => d
  | .sendToRequester d => d

end VideoHostEvent

namespace VideoLink

/-- A datagram that the viewer would take for video of its session. -/
def forged (s : ScreenClient) : ScreenClientInput → Bool
  | .onDatagram pkt _ =>
      match parseCommonHeader pkt with
      | none => false
      | some h => h.chan = .video && s.session.inSession h.sessionId
  | _ => false

def hostStep (w : VideoLink) (input : VideoHostInput) : VideoLink :=
  let (host, out) := videoHost.step w.host input
  { w with
    host := host
    frames := w.frames ++ (w.host.begins input).toList
    forgotten := VideoHost.forgets w.frames w.forgotten input
    sent := w.sent ++ out.map VideoHostEvent.datagram }

def viewerStep (w : VideoLink) (input : ScreenClientInput) : VideoLink × List ScreenCallback :=
  let (viewer, out) := screenClient.step w.viewer input
  ({ w with viewer := viewer }, out)

end VideoLink

open VideoLink in
/-- The outputs are the callbacks of the viewer. -/
def videoLink : Machine VideoLink VideoLinkInput ScreenCallback where
  step w
    | .host input => (w.hostStep input, [])
    -- video of the session comes from the host alone
    | .viewer input => if forged w.viewer input then (w, []) else w.viewerStep input
    | .deliver n nowUs =>
        match w.sent[n]? with
        | none => (w, [])
        | some d => w.viewerStep (.onDatagram d nowUs)

/-! ## More frames -/

theorem DatagramOf.mono {sent more : List (Packetizer × SentFrame)} {d : Bytes} (h : DatagramOf sent d) :
    DatagramOf (sent ++ more) d := by
  obtain ⟨x, hx, hd⟩ := h
  exact ⟨x, List.mem_append_left _ hx, hd⟩

theorem HoldsParts.mono {sent : List (Packetizer × SentFrame)} {r : Reassembler} (h : HoldsParts sent r)
    (more : List (Packetizer × SentFrame)) : HoldsParts (sent ++ more) r := by
  intro id p hp
  obtain ⟨x, hx, hrest⟩ := h id p hp
  exact ⟨x, List.mem_append_left _ hx, hrest⟩

theorem IsSent.mono {sent : List (Packetizer × SentFrame)} {frame : Frame} (h : IsSent sent frame)
    (more : List (Packetizer × SentFrame)) : IsSent (sent ++ more) frame := by
  obtain ⟨x, hx, hrest⟩ := h
  exact ⟨x, List.mem_append_left _ hx, hrest⟩

/-- A screen that lets in datagrams of sent frames holds parts of these, and hands over sent frames. -/
theorem ScreenClient.Moves.holdsParts {sent : List (Packetizer × SentFrame)} {s s' : ScreenClient}
    {out : List ScreenCallback} (hids : (sent.map (fun x => x.2.frameId)).Nodup)
    (hmoves : ScreenClient.Moves (DatagramOf sent) s s' out)
    (h : ∀ r, s.reasm = some r → HoldsParts sent r) :
    (∀ r, s'.reasm = some r → HoldsParts sent r) ∧ ∀ frame ∈ framesOf out, IsSent sent frame := by
  -- the reassembler works on from one that holds parts
  have hworks : ∀ {r r' : Reassembler}, Works (DatagramOf sent) r (framesOf out) r' → HoldsParts sent r →
      s'.reasm = some r' →
      (∀ r, s'.reasm = some r → HoldsParts sent r) ∧ ∀ frame ∈ framesOf out, IsSent sent frame := by
    intro r r' hworks hparts hafter
    have hkept := hworks.keep (holdsSent_kept hids) ⟨hparts, List.forall_mem_nil _⟩
    rw [List.nil_append] at hkept
    refine ⟨?_, hkept.2⟩
    intro r'' hr''
    obtain rfl := Option.some.inj (hafter.symm.trans hr'')
    exact hkept.1
  cases hmoves with
  | idle _ hafter hframes =>
    rw [hframes]
    refine ⟨?_, List.forall_mem_nil _⟩
    intro r hr
    rw [hafter] at hr
    cases hr
  | made i _ hafter hwork =>
    refine hworks hwork ?_ hafter
    intro id p hp
    cases hp
  | works hbefore hafter hwork => exact hworks hwork (h _ hbefore) hafter

namespace VideoLink

/-! ## The invariant -/

/-- The host's books are in order, all its datagrams are of frames it began, and so is what the viewer has
put together. -/
structure Inv (w : VideoLink) (out : List ScreenCallback) : Prop where
  host : ∃ q, VideoHost.Agrees w.frames w.forgotten w.host q
  sent : ∀ d ∈ w.sent, DatagramOf w.frames d
  viewer : ∀ r, w.viewer.reasm = some r → HoldsParts w.frames r
  frames : ∀ frame ∈ framesOf out, IsSent w.frames frame

variable {w : VideoLink} {out : List ScreenCallback}

theorem inv_init : Inv {} [] := by
  refine ⟨⟨{}, VideoHost.agrees_init⟩, List.forall_mem_nil _, ?_, List.forall_mem_nil _⟩
  intro r hr
  cases hr

theorem Inv.few (h : Inv w out) (hfew : w.frames.length ≤ 2 ^ 32) :
    (w.frames.map fun x => x.2.frameId).Nodup := by
  obtain ⟨q, hq⟩ := h.host
  exact hq.nodup hfew

/-- What the cache finds is a datagram of a frame. -/
theorem find_datagramOf {frames : List (Packetizer × SentFrame)} {forgotten : Nat} {s : VideoHost} {q : FrameQueue}
    (h : VideoHost.Agrees frames forgotten s q) {frameId : UInt32} {idx : UInt16}
    (hsome : s.retxCache.find frameId idx ≠ []) :
    DatagramOf frames (s.retxCache.find frameId idx) ∧
      ∃ hdr, storedPacket? (s.retxCache.find frameId idx) = some hdr ∧ hdr.frameId = frameId ∧
        hdr.pktIndex = idx := by
  rw [h.mirrors.find_eq] at hsome ⊢
  unfold FrameQueue.find FrameQueue.latest at hsome ⊢
  split at hsome
  · next hcached =>
    rw [if_pos hcached]
    cases hfind : (q.stored frameId).find? fun p => p.1 = idx with
    | none =>
      rw [hfind] at hsome
      exact absurd rfl hsome
    | some entry =>
      obtain ⟨hdatagram, hdr, hhdr, hframe, hindex⟩ := h.stored frameId entry (List.mem_of_find?_eq_some hfind)
      have hsame : entry.1 = idx := by simpa using List.find?_some hfind
      exact ⟨hdatagram, hdr, hhdr, hframe, hindex.trans hsame⟩
  · exact absurd rfl hsome

/-- The host sends datagrams of the frames it has begun. -/
theorem videoHost_sends {frames : List (Packetizer × SentFrame)} {forgotten : Nat} {s : VideoHost} {q : FrameQueue}
    (h : VideoHost.Agrees frames forgotten s q) (input : VideoHostInput) :
    ∀ e ∈ (videoHost.step s input).2, DatagramOf frames e.datagram := by
  cases input with
  | encoded view nal timestampUs keyframe =>
    intro e he
    simp only [videoHost] at he
    split at he
    · cases he
    · cases he
  | sendNext =>
    intro e he
    simp only [videoHost, VideoHost.sendNext] at he
    split at he
    · next d rest hsent hunsent =>
      -- what is not sent yet are datagrams of the last frame
      obtain ⟨addr, -, rfl⟩ := List.mem_map.mp he
      obtain ⟨done, hdone, -⟩ := h.burst
      rw [hunsent] at hdone
      have hlast : d ∈ VideoHost.lastDatagrams frames := by
        rw [hdone]
        simp
      obtain ⟨x, hx, -, hd⟩ := VideoHost.mem_lastDatagrams hlast
      exact ⟨x, List.mem_of_getElem? hx, hd⟩
    · cases he
  | storeNext =>
    intro e he
    cases he
  | nack viewerCount frameId indices =>
    intro e he
    simp only [videoHost, VideoHost.respondToNack] at he
    split at he
    · cases he
    · obtain ⟨d, hd, rfl⟩ := List.mem_map.mp he
      obtain ⟨hmem, hsome⟩ := List.mem_filter.mp hd
      obtain ⟨idx, -, rfl⟩ := List.mem_map.mp hmem
      exact (find_datagramOf h (by simpa using hsome)).1
  | forgetViewers =>
    intro e he
    cases he

theorem Inv.hostStep (h : Inv w out) (hfew : w.frames.length ≤ 2 ^ 32) (input : VideoHostInput) :
    Inv (w.hostStep input) out := by
  obtain ⟨q, hq⟩ := h.host
  obtain ⟨q', hq'⟩ := hq.step hfew input
  refine ⟨⟨q', hq'⟩, ?_, fun r hr => (h.viewer r hr).mono _, fun frame hframe => (h.frames frame hframe).mono _⟩
  intro d hd
  rcases List.mem_append.mp hd with hold | hnew
  · exact (h.sent d hold).mono
  · obtain ⟨e, he, rfl⟩ := List.mem_map.mp hnew
    exact (videoHost_sends hq input e he).mono

theorem Inv.viewerStep (h : Inv w out) (hfew : w.frames.length ≤ 2 ^ 32) {input : ScreenClientInput}
    (hadmits : w.viewer.Admits (DatagramOf w.frames) input) :
    Inv (w.viewerStep input).1 (out ++ (w.viewerStep input).2) := by
  have hafter : (∀ r, (screenClient.step w.viewer input).1.reasm = some r → HoldsParts w.frames r) ∧
      ∀ frame ∈ framesOf (screenClient.step w.viewer input).2, IsSent w.frames frame := by
    by_cases hstart : input.isStart = true
    · cases input with
      | start cfg nowUs =>
        obtain ⟨hnone, hframes⟩ := w.viewer.start_resets cfg nowUs
        simp only [screenClient, hnone, hframes]
        refine ⟨?_, List.forall_mem_nil _⟩
        intro r hr
        cases hr
      | _ => cases hstart
    · exact (ScreenClient.step_moves hadmits (by simpa using hstart)).holdsParts (h.few hfew) h.viewer
  refine ⟨h.host, h.sent, hafter.1, ?_⟩
  intro frame hframe
  rw [framesOf_append] at hframe
  rcases List.mem_append.mp hframe with hold | hnew
  · exact h.frames frame hold
  · exact hafter.2 frame hnew

/-- What is not forged is no video of the session. -/
theorem admits_of_not_forged {s : ScreenClient} {input : ScreenClientInput} (h : forged s input = false)
    (D : Bytes → Prop) : s.Admits D input := by
  cases input with
  | onDatagram pkt nowUs =>
    rintro ⟨hdr, hparse, hchan, hsession⟩
    simp [forged, hparse, hchan, hsession] at h
  | _ => trivial

/-- Each step keeps the invariant. -/
theorem Inv.step (h : Inv w out) (hfew : w.frames.length ≤ 2 ^ 32) (input : VideoLinkInput) :
    Inv (videoLink.step w input).1 (out ++ (videoLink.step w input).2) := by
  have hsame : Inv w (out ++ []) := by
    rw [List.append_nil]
    exact h
  cases input with
  | host input =>
    have hstep := h.hostStep hfew input
    simp only [videoLink, List.append_nil]
    exact hstep
  | viewer input =>
    simp only [videoLink]
    split
    · exact hsame
    · next hgenuine => exact h.viewerStep hfew (admits_of_not_forged (by simpa using hgenuine) _)
  | deliver n nowUs =>
    simp only [videoLink]
    cases hd : w.sent[n]? with
    | none => exact hsame
    | some d => exact h.viewerStep hfew fun _ => h.sent d (List.mem_of_getElem? hd)

/-! ## Runs -/

/-- Frames are only added. -/
theorem step_frames (w : VideoLink) (input : VideoLinkInput) :
    ∃ more, (videoLink.step w input).1.frames = w.frames ++ more := by
  have hsame : ∃ more, w.frames = w.frames ++ more := ⟨[], (List.append_nil _).symm⟩
  cases input with
  | host input => exact ⟨_, rfl⟩
  | viewer input =>
    simp only [videoLink]
    split
    · exact hsame
    · exact hsame
  | deliver n nowUs =>
    simp only [videoLink]
    split
    · exact hsame
    · exact hsame

theorem run_frames (w : VideoLink) (inputs : List VideoLinkInput) :
    ∃ more, (videoLink.run w inputs).1.frames = w.frames ++ more := by
  induction inputs generalizing w with
  | nil => exact ⟨[], (List.append_nil _).symm⟩
  | cons input inputs ih =>
    obtain ⟨more, hmore⟩ := step_frames w input
    obtain ⟨rest, hrest⟩ := ih (videoLink.step w input).1
    refine ⟨more ++ rest, ?_⟩
    rw [Machine.run_cons]
    dsimp only
    rw [hrest, hmore, List.append_assoc]

theorem run_inv (inputs : List VideoLinkInput) (hfew : (videoLink.run {} inputs).1.frames.length ≤ 2 ^ 32) :
    Inv (videoLink.run {} inputs).1 (videoLink.run {} inputs).2 := by
  refine Machine.run_invariant Inv (fun w _ _ => w.frames.length ≤ 2 ^ 32) inv_init
    (fun w out input hfew h => h.step hfew input) inputs ?_
  rintro before input after rfl
  obtain ⟨more, hmore⟩ := run_frames (videoLink.run {} before).1 (input :: after)
  rw [Machine.run_append] at hfew
  dsimp only at hfew
  rw [hmore, List.length_append] at hfew
  omega

end VideoLink

/-- However the host's threads, the network and the viewer are interleaved, through any number of sessions,
losses, repetitions and repairs: each frame that the viewer hands to its decoder is one that the host
encoded, exactly as it was. The frame ids are 32 bits, so this is for the first 2^32 frames. -/
theorem videoLink_exact (inputs : List VideoLinkInput)
    (hfew : (videoLink.run {} inputs).1.frames.length ≤ 2 ^ 32) (frame : Frame)
    (hframe : .frame frame ∈ (videoLink.run {} inputs).2) :
    IsSent (videoLink.run {} inputs).1.frames frame :=
  (VideoLink.run_inv inputs hfew).frames frame (mem_framesOf.mpr hframe)

/-- A frame is lost on the way, asked for, sent again, and handed over. -/
def resentInputs : List VideoLinkInput :=
  let ack := (buildHelloAck kMaxDatagram ⟨7, 640, 480, 30, 1000000, false, .none⟩).getD []
  [.viewer (.start {} 0), .viewer (.onDatagram ack 10),
    .host (.encoded ⟨true, 7, [1], false⟩ [1, 2, 3] 9 true), .host .sendNext, .host .storeNext,
    .host (.nack 1 0 [0]), .deliver 1 20, .viewer (.pollFrames 30)]

theorem videoLink_exact_resent :
    IsSent (videoLink.run {} resentInputs).1.frames ⟨0, 9, true, 20, [1, 2, 3]⟩ :=
  videoLink_exact resentInputs (by decide +kernel) _ (by decide +kernel)

end Deskhub
