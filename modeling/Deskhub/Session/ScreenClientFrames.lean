import Deskhub.Session.ScreenClient
import Deskhub.Session.VideoHost
import Deskhub.Transport.Bookkeeping

/-!
# The frames a viewer sees

What a call of the screen does to its reassembler: between two starts, calls of the reassembler
alone, with the packets of the datagrams that are let in. So what holds of the reassembler holds
of the screen: `screenClient_exact` says which frames go to the decoder, and in which order.
-/

namespace Deskhub

open OrdMap

/-! ## The reassembler at work -/

/-- The frames among the events of the reassembler. -/
def returnedFrames (out : List ReassemblerEvent) : List Frame :=
  out.filterMap fun
    | .returned frame => some frame
    | _ => none

/-- The frames among the callbacks of the screen. -/
def framesOf (out : List ScreenCallback) : List Frame :=
  out.filterMap fun
    | .frame frame => some frame
    | _ => none

theorem returnedFrames_append (xs ys : List ReassemblerEvent) :
    returnedFrames (xs ++ ys) = returnedFrames xs ++ returnedFrames ys :=
  List.filterMap_append

theorem framesOf_append (xs ys : List ScreenCallback) : framesOf (xs ++ ys) = framesOf xs ++ framesOf ys :=
  List.filterMap_append

theorem mem_framesOf {out : List ScreenCallback} {frame : Frame} :
    frame ∈ framesOf out ↔ .frame frame ∈ out := by
  unfold framesOf
  rw [List.mem_filterMap]
  constructor
  · rintro ⟨e, he, hsome⟩
    cases e with
    | frame f =>
      obtain rfl := Option.some.inj hsome
      exact he
    | _ => cases hsome
  · intro hmem
    exact ⟨_, hmem, rfl⟩

theorem returnedIds_eq (out : List ReassemblerEvent) : returnedIds out = (returnedFrames out).map Frame.frameId := by
  unfold returnedIds returnedFrames
  rw [List.map_filterMap]
  congr 1
  funext e
  cases e with
  | _ => rfl

/-- Frames that are given up are not returned. -/
theorem Reassembler.GivesUp.returnedFrames {r r' : Reassembler} {evs : List ReassemblerEvent}
    (h : Reassembler.GivesUp r evs r') : returnedFrames evs = [] := by
  have hids := h.returnedIds
  rw [returnedIds_eq] at hids
  exact List.map_eq_nil_iff.mp hids

/-- A packet that is taken in returns no frame. -/
theorem Reassembler.TakesIn.returnedFrames {r : Reassembler} {id : UInt32} {n : UInt16} {ts t : UInt64}
    {upd : Pending → Pending} {q : Reassembler × List ReassemblerEvent}
    (h : Reassembler.TakesIn r id n ts t upd q) : returnedFrames q.2 = [] := by
  cases h with
  | ignored _ _ => rfl
  | changed _ _ _ _ _ => rfl
  | added _ _ _ _ hevict _ _ => exact hevict.returnedFrames

/-- The packets of the call are those of a datagram that `D` admits. -/
def ReassemblerOp.From (D : Bytes → Prop) (op : ReassemblerOp) : Prop :=
  match op with
  | .push _ _ | .pushFec _ _ => ∃ d nowUs, D d ∧ ReassemblerOp.ofDatagram d nowUs = some op
  | _ => True

/-- A datagram is read by the parsers. -/
theorem ReassemblerOp.From.parsed {D : Bytes → Prop} {op : ReassemblerOp} (h : op.From D) : op.Parsed := by
  have hread : ∀ {d nowUs}, ReassemblerOp.ofDatagram d nowUs = some op → op.Parsed := by
    intro d nowUs hop
    unfold ReassemblerOp.ofDatagram at hop
    cases hheader : parseCommonHeader d with
    | none =>
      rw [hheader] at hop
      cases hop
    | some h =>
      rw [hheader] at hop
      dsimp only at hop
      split at hop
      · cases hop
      · split at hop
        · obtain ⟨v, hv, rfl⟩ := Option.map_eq_some_iff.mp hop
          exact ⟨_, _, hv⟩
        · obtain ⟨v, hv, rfl⟩ := Option.map_eq_some_iff.mp hop
          exact ⟨_, _, hv⟩
  cases op with
  | push pkt nowUs =>
    obtain ⟨d, t, -, hop⟩ := h
    exact hread hop
  | pushFec pkt nowUs =>
    obtain ⟨d, t, -, hop⟩ := h
    exact hread hop
  | _ => trivial

/-- Calls of the reassembler, and the frames they return. What is taken from it for the screen's own
use changes nothing else. -/
inductive Works (D : Bytes → Prop) : Reassembler → List Frame → Reassembler → Prop where
  | refl (r : Reassembler) : Works D r [] r
  | call {r r' : Reassembler} {frames : List Frame} (op : ReassemblerOp) (hop : op.From D)
      (rest : Works D (reassembler.step r op).1 frames r') :
      Works D r (returnedFrames (reassembler.step r op).2 ++ frames) r'
  | takeLossEvent {r r' : Reassembler} {frames : List Frame} (rest : Works D r.takeLossEvent.1 frames r') :
      Works D r frames r'
  | takeMaxGapMs {r r' : Reassembler} {frames : List Frame} (rest : Works D r.takeMaxGapMs.1 frames r') :
      Works D r frames r'

namespace Works

variable {D : Bytes → Prop} {r r' r'' : Reassembler} {frames more : List Frame}

theorem trans (h : Works D r frames r') (h' : Works D r' more r'') : Works D r (frames ++ more) r'' := by
  induction h with
  | refl r => exact h'
  | call op hop rest ih =>
    rw [List.append_assoc]
    exact .call op hop (ih h')
  | takeLossEvent rest ih => exact .takeLossEvent (ih h')
  | takeMaxGapMs rest ih => exact .takeMaxGapMs (ih h')

theorem one (op : ReassemblerOp) (hop : op.From D) :
    Works D r (returnedFrames (reassembler.step r op).2) (reassembler.step r op).1 := by
  have h := Works.call op hop (Works.refl (reassembler.step r op).1)
  rwa [List.append_nil] at h

end Works

/-- A relation of the reassembler with the frames it has returned that its calls keep. -/
structure KeptByCalls (D : Bytes → Prop) (P : Reassembler → List Frame → Prop) : Prop where
  call : ∀ r frames op, op.From D → P r frames →
    P (reassembler.step r op).1 (frames ++ returnedFrames (reassembler.step r op).2)
  takeLossEvent : ∀ r frames, P r frames → P r.takeLossEvent.1 frames
  takeMaxGapMs : ∀ r frames, P r frames → P r.takeMaxGapMs.1 frames

theorem Works.keep {D : Bytes → Prop} {P : Reassembler → List Frame → Prop} (hP : KeptByCalls D P)
    {r r' : Reassembler} {before frames : List Frame} (h : Works D r frames r') (hr : P r before) :
    P r' (before ++ frames) := by
  induction h generalizing before with
  | refl r => rwa [List.append_nil]
  | call op hop rest ih =>
    rw [← List.append_assoc]
    exact ih (hP.call _ _ op hop hr)
  | takeLossEvent rest ih => exact ih (hP.takeLossEvent _ _ hr)
  | takeMaxGapMs rest ih => exact ih (hP.takeMaxGapMs _ _ hr)

/-- The call starts the screen anew. -/
def ScreenClientInput.isStart : ScreenClientInput → Bool
  | .start _ _ => true
  | _ => false

namespace ScreenClient

variable {D : Bytes → Prop} {s s' s'' : ScreenClient} {out more : List ScreenCallback}

/-- What a call does to the reassembler of the screen: one that is there works on, one that is not may
be made. -/
inductive Moves (D : Bytes → Prop) (s s' : ScreenClient) (out : List ScreenCallback) : Prop where
  | idle (hbefore : s.reasm = none) (hafter : s'.reasm = none) (hframes : framesOf out = [])
  | made (frameIntervalUs : UInt64) {r : Reassembler} (hbefore : s.reasm = none) (hafter : s'.reasm = some r)
      (hworks : Works D (.create frameIntervalUs) (framesOf out) r)
  | works {r r' : Reassembler} (hbefore : s.reasm = some r) (hafter : s'.reasm = some r')
      (hworks : Works D r (framesOf out) r')

namespace Moves

/-- The reassembler is not touched. -/
theorem of_eq (h : s'.reasm = s.reasm) (hframes : framesOf out = []) : Moves D s s' out := by
  cases hreasm : s.reasm with
  | none => exact .idle hreasm (h.trans hreasm) hframes
  | some r =>
    refine .works hreasm (h.trans hreasm) ?_
    rw [hframes]
    exact .refl r

theorem trans (h : Moves D s s' out) (h' : Moves D s' s'' more) : Moves D s s'' (out ++ more) := by
  cases h with
  | idle hbefore hafter hframes =>
    have hsame : framesOf (out ++ more) = framesOf more := by
      rw [framesOf_append, hframes, List.nil_append]
    cases h' with
    | idle _ hafter' hframes' => exact .idle hbefore hafter' (hsame.trans hframes')
    | made i _ hafter' hworks => exact .made i hbefore hafter' (hsame ▸ hworks)
    | works hbefore' _ _ =>
      rw [hafter] at hbefore'
      cases hbefore'
  | made i hbefore hafter hworks =>
    cases h' with
    | idle hbefore' _ _ =>
      rw [hafter] at hbefore'
      cases hbefore'
    | made _ hbefore' _ _ =>
      rw [hafter] at hbefore'
      cases hbefore'
    | works hbefore' hafter' hworks' =>
      obtain rfl := Option.some.inj (hafter.symm.trans hbefore')
      refine .made i hbefore hafter' ?_
      rw [framesOf_append]
      exact hworks.trans hworks'
  | works hbefore hafter hworks =>
    cases h' with
    | idle hbefore' _ _ =>
      rw [hafter] at hbefore'
      cases hbefore'
    | made _ hbefore' _ _ =>
      rw [hafter] at hbefore'
      cases hbefore'
    | works hbefore' hafter' hworks' =>
      obtain rfl := Option.some.inj (hafter.symm.trans hbefore')
      refine .works hbefore hafter' ?_
      rw [framesOf_append]
      exact hworks.trans hworks'

end Moves

/-! ## Callbacks -/

theorem onSession_moves (s : ScreenClient) (e : ScreenClientEvent) :
    Moves D s (s.onSession e).1 (s.onSession e).2 := by
  cases e with
  | reconfig params =>
    cases hreasm : s.reasm with
    | none => exact .idle hreasm (by rw [onSession, hreasm]; rfl) rfl
    | some r =>
      refine Moves.works hreasm (by rw [onSession, hreasm]; rfl) ?_
      exact Works.one (.setFps params.fps.toUInt32) trivial
  | rtt rttUs =>
    have haddRtt : (s.addRtt rttUs).reasm = s.reasm := by
      unfold addRtt
      split
      · rfl
      · rfl
    cases hreasm : s.reasm with
    | none =>
      refine .idle hreasm ?_ rfl
      rw [onSession]
      dsimp only
      rw [haddRtt, hreasm]
      rfl
    | some r =>
      have hwork : Works D r [] (r.setRttUs (s.addRtt rttUs).minRttUs.toUInt64) :=
        Works.one (.setRttUs (s.addRtt rttUs).minRttUs.toUInt64) trivial
      refine .works hreasm ?_ hwork
      rw [onSession]
      dsimp only
      rw [haddRtt, hreasm]
      rfl
  | _ => exact .of_eq rfl rfl

theorem onSessionAll_moves (s : ScreenClient) (es : List ScreenClientEvent) :
    Moves D s (s.onSessionAll es).1 (s.onSessionAll es).2 := by
  induction es generalizing s with
  | nil => exact .of_eq rfl rfl
  | cons e es ih => exact (onSession_moves s e).trans (ih _)

theorem withSession_moves (s : ScreenClient) (call : ScreenClientSession × List ScreenClientEvent) :
    Moves D s (s.withSession call).1 (s.withSession call).2 := by
  have hsession : Moves D s { s with session := call.1 } [] := .of_eq rfl rfl
  exact hsession.trans (onSessionAll_moves _ call.2)

/-- What is sent changes nothing on the screen. -/
theorem onSessionAll_sent (s : ScreenClient) (packet : Option Bytes) :
    s.onSessionAll (ScreenClientSession.sent packet) = (s, packet.toList.map ScreenCallback.send) := by
  cases packet with
  | none => rfl
  | some bytes => rfl

theorem framesOf_send (packets : List Bytes) : framesOf (packets.map ScreenCallback.send) = [] := by
  unfold framesOf
  rw [List.filterMap_map]
  exact List.filterMap_eq_nil_iff.mpr fun _ _ => rfl

/-- The callbacks of the reassembler leave the screen as it is, and give it no frame. -/
theorem onReassembler_eq (s : ScreenClient) (e : ReassemblerEvent) :
    (s.onReassembler e).1 = s ∧ framesOf (s.onReassembler e).2 = [] := by
  cases e with
  | referenceLost frameId =>
    unfold onReassembler ScreenClientSession.sendInvalidateRef
    dsimp only
    split
    · exact ⟨rfl, rfl⟩
    · rw [onSessionAll_sent]
      exact ⟨rfl, framesOf_send _⟩
  | _ => exact ⟨rfl, rfl⟩

theorem onReassemblerAll_eq (s : ScreenClient) (es : List ReassemblerEvent) :
    (s.onReassemblerAll es).1 = s ∧ framesOf (s.onReassemblerAll es).2 = [] := by
  induction es with
  | nil => exact ⟨rfl, rfl⟩
  | cons e es ih =>
    obtain ⟨hsame, hframes⟩ := onReassembler_eq s e
    show ((s.onReassembler e).1.onReassemblerAll es).1 = s ∧
      framesOf ((s.onReassembler e).2 ++ ((s.onReassembler e).1.onReassemblerAll es).2) = []
    rw [hsame, framesOf_append, hframes, ih.2]
    exact ⟨ih.1, rfl⟩

theorem withReassembler_eq (s : ScreenClient) (r : Reassembler × List ReassemblerEvent) :
    (s.withReassembler r).1 = { s with reasm := some r.1 } ∧ framesOf (s.withReassembler r).2 = [] :=
  onReassemblerAll_eq _ _

/-! ## Calls -/

/-- The datagram is let in as video. -/
def TakesVideo (s : ScreenClient) (pkt : Bytes) : Prop :=
  ∃ h, parseCommonHeader pkt = some h ∧ h.chan = .video ∧ s.session.inSession h.sessionId = true

/-- Where there is no reassembler, one is made. -/
theorem ensureReassembler_made (s : ScreenClient) (hnone : s.reasm = none) : ∃ frameIntervalUs : UInt64,
    s.ensureReassembler = (Reassembler.create frameIntervalUs).setRttUs s.minRttUs.toUInt64 := by
  unfold ensureReassembler
  rw [hnone]
  exact ⟨_, rfl⟩

/-- The reassembler works once, the one there is or a new one. -/
theorem moves_of_step (op : ReassemblerOp) (hop : op.From D)
    (hnone : returnedFrames (reassembler.step s.ensureReassembler op).2 = [])
    (hafter : s'.reasm = some (reassembler.step s.ensureReassembler op).1) (hframes : framesOf out = []) :
    Moves D s s' out := by
  have hone := Works.one (r := s.ensureReassembler) op hop
  rw [hnone] at hone
  cases hreasm : s.reasm with
  | some r =>
    have hthere : s.ensureReassembler = r := by rw [ensureReassembler, hreasm]
    rw [hthere] at hone hafter
    exact .works hreasm hafter (hframes ▸ hone)
  | none =>
    obtain ⟨i, hnew⟩ := s.ensureReassembler_made hreasm
    rw [hnew] at hone hafter
    refine .made i hreasm hafter ?_
    rw [hframes]
    exact .call (.setRttUs s.minRttUs.toUInt64) trivial hone

/-- A packet of the video channel. -/
theorem onVideo_moves {h : CommonHeader} {pkt : Bytes} {nowUs : UInt64} (hheader : parseCommonHeader pkt = some h)
    (hchan : h.chan = .video) (hD : s.TakesVideo pkt → D pkt) :
    Moves D s (s.onVideo h pkt nowUs).1 (s.onVideo h pkt nowUs).2 := by
  -- a packet that is not read makes the reassembler and leaves it there
  have hunread : Moves D s { s with reasm := some s.ensureReassembler } [] := by
    cases hreasm : s.reasm with
    | some r => exact .of_eq (by rw [ensureReassembler, hreasm]) rfl
    | none =>
      obtain ⟨i, hnew⟩ := s.ensureReassembler_made hreasm
      refine .made i hreasm rfl ?_
      rw [hnew]
      exact Works.one (.setRttUs s.minRttUs.toUInt64) trivial
  unfold onVideo
  by_cases hsession : s.session.inSession h.sessionId = true
  · have hadmitted := hD ⟨h, hheader, hchan, hsession⟩
    rw [if_neg (by rw [hsession]; decide)]
    dsimp only
    split
    · next hfec =>
      cases hparse : parseFecPacket h (payloadOf pkt) with
      | none => exact hunread
      | some v =>
        have hop : ReassemblerOp.ofDatagram pkt nowUs = some (.pushFec v nowUs) := by
          rw [ReassemblerOp.ofDatagram, hheader]
          dsimp only
          rw [if_neg (not_not.mpr hchan), if_pos hfec, hparse]
          rfl
        obtain ⟨hreasm, hframes⟩ := withReassembler_eq
          { s with session := s.session.notifyVideoPacket nowUs } (s.ensureReassembler.pushFec v nowUs)
        refine moves_of_step (.pushFec v nowUs) ⟨pkt, nowUs, hadmitted, hop⟩ ?_ (by rw [hreasm]; rfl) hframes
        exact (Reassembler.pushFec_takesIn s.ensureReassembler v nowUs).returnedFrames
    · next hvideo =>
      cases hparse : parseVideoPacket h (payloadOf pkt) with
      | none => exact hunread
      | some v =>
        have hop : ReassemblerOp.ofDatagram pkt nowUs = some (.push v nowUs) := by
          rw [ReassemblerOp.ofDatagram, hheader]
          dsimp only
          rw [if_neg (not_not.mpr hchan), if_neg hvideo, hparse]
          rfl
        obtain ⟨hreasm, hframes⟩ := withReassembler_eq
          { s with session := s.session.notifyVideoPacket nowUs } (s.ensureReassembler.push v nowUs)
        refine moves_of_step (.push v nowUs) ⟨pkt, nowUs, hadmitted, hop⟩ ?_ (by rw [hreasm]; rfl) hframes
        exact (Reassembler.push_takesIn s.ensureReassembler v nowUs).returnedFrames
  · rw [if_pos (by simpa using hsession)]
    exact .of_eq rfl rfl

/-- `PopReady` gives up frames and returns at most one. -/
theorem returnedFrames_popReady (r : Reassembler) (nowUs : UInt64) :
    returnedFrames (r.popReady nowUs).2.1 = [] ∧
      returnedFrames (reassembler.step r (.popReady nowUs)).2 = (r.popReady nowUs).2.2.toList := by
  have hdropped : returnedFrames (r.popReady nowUs).2.1 = [] := by
    have hpops := Reassembler.popReady_pops r nowUs
    generalize r.popReady nowUs = q at hpops
    cases hpops with
    | waits hdrops _ => exact hdrops.returnedFrames
    | delivers hdrops _ _ _ => exact hdrops.returnedFrames
  refine ⟨hdropped, ?_⟩
  show returnedFrames ((r.popReady nowUs).2.1 ++ ((r.popReady nowUs).2.2.map .returned).toList) = _
  rw [returnedFrames_append, hdropped]
  cases (r.popReady nowUs).2.2 with
  | none => rfl
  | some frame => rfl

theorem tookFrame_reasm (s : ScreenClient) (f : Frame) : (s.tookFrame f).reasm = s.reasm := by
  unfold tookFrame
  split
  · rfl
  · rfl

theorem popFrames_moves (n : Nat) (s : ScreenClient) (nowUs : UInt64) :
    Moves D s (popFrames n s nowUs).1 (popFrames n s nowUs).2 := by
  induction n generalizing s with
  | zero => exact .of_eq rfl rfl
  | succ n ih =>
    unfold popFrames
    cases hreasm : s.reasm with
    | none => exact .of_eq rfl rfl
    | some r =>
      obtain ⟨hsame, hnone⟩ := withReassembler_eq s ((r.popReady nowUs).1, (r.popReady nowUs).2.1)
      have hone := Works.one (r := r) (D := D) (.popReady nowUs) trivial
      rw [(returnedFrames_popReady r nowUs).2] at hone
      dsimp only
      cases hframe : (r.popReady nowUs).2.2 with
      | none =>
        rw [hframe] at hone
        refine .works hreasm (by rw [hsame]) ?_
        rw [hnone]
        exact hone
      | some f =>
        rw [hframe] at hone
        -- the frame goes out, and the loop goes on
        have htook : Moves D s
            ((s.withReassembler ((r.popReady nowUs).1, (r.popReady nowUs).2.1)).1.tookFrame f)
            ((s.withReassembler ((r.popReady nowUs).1, (r.popReady nowUs).2.1)).2 ++ [.frame f]) := by
          refine .works hreasm (by rw [tookFrame_reasm, hsame]) ?_
          rw [framesOf_append, hnone]
          exact hone
        have hrest := htook.trans (ih _)
        rw [List.append_assoc] at hrest
        exact hrest

theorem askForKeyframe_moves (s : ScreenClient) : Moves D s s.askForKeyframe [] := by
  unfold askForKeyframe
  cases hreasm : s.reasm with
  | none => exact .of_eq rfl rfl
  | some r =>
    refine .works hreasm ?_ (.takeLossEvent (.refl _))
    dsimp only
    split
    · rfl
    · split
      · rfl
      · rfl

theorem pollFrames_moves (s : ScreenClient) (nowUs : UInt64) :
    Moves D s (s.pollFrames nowUs).1 (s.pollFrames nowUs).2 := by
  unfold pollFrames
  cases hreasm : s.reasm with
  | none => exact .of_eq rfl rfl
  | some r =>
    have hpolled := (popFrames_moves (D := D) r.pending.size s nowUs).trans (askForKeyframe_moves _)
    rw [List.append_nil] at hpolled
    exact hpolled

/-- What is sent besides. -/
theorem sent_moves {es : List ScreenClientEvent} (packet : Option Bytes)
    (hes : es = [] ∨ es = ScreenClientSession.sent packet) :
    (s.onSessionAll es).1 = s ∧ framesOf (s.onSessionAll es).2 = [] := by
  rcases hes with rfl | rfl
  · exact ⟨rfl, rfl⟩
  · rw [onSessionAll_sent]
    exact ⟨rfl, framesOf_send _⟩

theorem sendNack_cases (session : ScreenClientSession) (frameId : UInt32) (indices : List UInt16) :
    session.sendNack frameId indices = [] ∨ session.sendNack frameId indices =
      ScreenClientSession.sent (buildNack kMaxDatagram session.sessionId frameId indices) := by
  unfold ScreenClientSession.sendNack
  split
  · exact .inl rfl
  · exact .inr rfl

theorem sendFeedback_cases (session : ScreenClientSession) (fb : Feedback) :
    session.sendFeedback fb = [] ∨ session.sendFeedback fb =
      ScreenClientSession.sent (buildFeedback kMaxDatagram session.sessionId fb) := by
  unfold ScreenClientSession.sendFeedback
  split
  · exact .inl rfl
  · exact .inr rfl

theorem planNacks_moves (s : ScreenClient) (nowUs : UInt64) :
    Moves D s (s.planNacks nowUs).1 (s.planNacks nowUs).2 := by
  unfold planNacks
  split
  · exact .of_eq rfl rfl
  · cases hreasm : s.reasm with
    | none => exact .of_eq rfl rfl
    | some r =>
      have hone := Works.one (r := r) (D := D) (.planNack nowUs s.minRttUs.toUInt64 kNackBatchMax) trivial
      dsimp only
      cases hplan : (r.planNack nowUs s.minRttUs.toUInt64 kNackBatchMax).2 with
      | none => exact .works hreasm rfl hone
      | some plan =>
        obtain ⟨hsame, hnone⟩ := sent_moves
          (s := { s with reasm := some (r.planNack nowUs s.minRttUs.toUInt64 kNackBatchMax).1 }) _
          (sendNack_cases s.session plan.1 plan.2)
        refine .works hreasm (by rw [hsame]) ?_
        rw [hnone]
        exact hone

theorem report_moves (s : ScreenClient) (fb : Feedback) : Moves D s (s.report fb).1 (s.report fb).2 := by
  obtain ⟨hsame, hnone⟩ := sent_moves (s := s) _ (sendFeedback_cases s.session fb)
  unfold report
  dsimp only
  rw [hsame]
  cases hreasm : s.reasm with
  | none => exact .idle hreasm rfl hnone
  | some r =>
    refine .works hreasm rfl ?_
    rw [hnone]
    exact .takeMaxGapMs (.refl _)

theorem tick_moves (s : ScreenClient) (nowUs : UInt64) (due : Option Feedback) :
    Moves D s (s.tick nowUs due).1 (s.tick nowUs due).2 := by
  have hticked := withSession_moves (D := D) s (s.session.tick nowUs)
  unfold tick
  dsimp only
  split
  · exact hticked
  · cases due with
    | none => exact hticked
    | some fb => exact hticked.trans (report_moves _ fb)

theorem onDatagram_moves {pkt : Bytes} (nowUs : UInt64) (hD : s.TakesVideo pkt → D pkt) :
    Moves D s (s.onDatagram pkt nowUs).1 (s.onDatagram pkt nowUs).2 := by
  unfold onDatagram
  cases hheader : parseCommonHeader pkt with
  | none => exact .of_eq rfl rfl
  | some h =>
    dsimp only
    split
    · unfold onAudio
      split
      · exact .of_eq rfl rfl
      · split
        · exact .of_eq rfl rfl
        · split
          · exact .of_eq rfl rfl
          · exact .of_eq rfl rfl
    · split
      · exact withSession_moves s _
      · next hchan => exact onVideo_moves hheader (not_not.mp hchan) hD

/-- A start throws the reassembler away. -/
theorem start_resets (s : ScreenClient) (cfg : ScreenClientConfig) (nowUs : UInt64) :
    (s.start cfg nowUs).1.reasm = none ∧ framesOf (s.start cfg nowUs).2 = [] := by
  unfold start withSession ScreenClientSession.start ScreenClientSession.sendHello
  dsimp only
  rw [onSessionAll_sent]
  exact ⟨rfl, framesOf_send _⟩

/-- Video that the call lets in is admitted. -/
def Admits (D : Bytes → Prop) (s : ScreenClient) : ScreenClientInput → Prop
  | .onDatagram pkt _ => s.TakesVideo pkt → D pkt
  | _ => True

/-- What a call does, but for a start. -/
theorem step_moves {input : ScreenClientInput} (hadmits : s.Admits D input) (hgoes : input.isStart = false) :
    Moves D s (screenClient.step s input).1 (screenClient.step s input).2 := by
  cases input with
  | start cfg nowUs => cases hgoes
  | onDatagram pkt nowUs => exact onDatagram_moves nowUs hadmits
  | pollFrames nowUs => exact pollFrames_moves s nowUs
  | planNacks nowUs => exact planNacks_moves s nowUs
  | tick nowUs due => exact tick_moves s nowUs due
  | sendBye => exact withSession_moves s _
  | _ => exact .of_eq rfl rfl

/-! ## Runs -/

/-- The frames are those that the reassembler of the screen has returned. -/
structure Tracks (P : Reassembler → List Frame → Prop) (s : ScreenClient) (frames : List Frame) : Prop where
  idle : s.reasm = none → frames = []
  working : ∀ r, s.reasm = some r → P r frames

variable {P : Reassembler → List Frame → Prop} {frames : List Frame}

theorem Tracks.moves (hP : KeptByCalls D P) (hnew : ∀ frameIntervalUs, P (.create frameIntervalUs) [])
    (h : Tracks P s frames) (hmoves : Moves D s s' out) : Tracks P s' (frames ++ framesOf out) := by
  cases hmoves with
  | idle hbefore hafter hframes =>
    rw [hframes, List.append_nil, h.idle hbefore]
    refine ⟨fun _ => rfl, ?_⟩
    intro r hr
    rw [hafter] at hr
    cases hr
  | made i hbefore hafter hworks =>
    rw [h.idle hbefore]
    constructor
    · intro hnone
      rw [hafter] at hnone
      cases hnone
    · intro r hr
      obtain rfl := Option.some.inj (hafter.symm.trans hr)
      exact hworks.keep hP (hnew i)
  | works hbefore hafter hworks =>
    constructor
    · intro hnone
      rw [hafter] at hnone
      cases hnone
    · intro r hr
      obtain rfl := Option.some.inj (hafter.symm.trans hr)
      exact hworks.keep hP (h.working _ hbefore)

/-- The calls go on with the session that was started, and let in no video but what is admitted. -/
def GoesOn (D : Bytes → Prop) (s : ScreenClient) (input : ScreenClientInput) : Prop :=
  s.Admits D input ∧ input.isStart = false

/-- The rule for what the calls of a reassembler keep: it holds of the screen's, from a start on. -/
theorem run_tracks (hP : KeptByCalls D P) (hnew : ∀ frameIntervalUs, P (.create frameIntervalUs) [])
    (hnone : s.reasm = none) (inputs : List ScreenClientInput)
    (hgoes : screenClient.Along (fun s _ input => s.GoesOn D input) s inputs) :
    Tracks P (screenClient.run s inputs).1 (framesOf (screenClient.run s inputs).2) := by
  refine Machine.run_invariant (fun s out => Tracks P s (framesOf out))
    (fun s _ input => s.GoesOn D input) ?_ ?_ inputs hgoes
  · refine ⟨fun _ => rfl, ?_⟩
    intro r hr
    rw [hnone] at hr
    cases hr
  · intro s out input hinput h
    rw [framesOf_append]
    exact h.moves hP hnew (step_moves hinput.1 hinput.2)

end ScreenClient

theorem ReassemblerOp.From.arrives {sent : List (Packetizer × SentFrame)} {op : ReassemblerOp}
    (h : op.From (DatagramOf sent)) : Arrives sent op := by
  cases op with
  | push pkt nowUs =>
    obtain ⟨d, t, ⟨x, hx, hd⟩, hop⟩ := h
    exact ⟨x, hx, d, hd, t, hop⟩
  | pushFec pkt nowUs =>
    obtain ⟨d, t, ⟨x, hx, hd⟩, hop⟩ := h
    exact ⟨x, hx, d, hd, t, hop⟩
  | _ => trivial

/-- The reassembler holds parts of the sent frames and has returned sent frames. -/
def HoldsSent (sent : List (Packetizer × SentFrame)) (r : Reassembler) (frames : List Frame) : Prop :=
  HoldsParts sent r ∧ ∀ frame ∈ frames, IsSent sent frame

theorem mem_returnedFrames {out : List ReassemblerEvent} {frame : Frame} (h : frame ∈ returnedFrames out) :
    .returned frame ∈ out := by
  obtain ⟨e, he, hsome⟩ := List.mem_filterMap.mp h
  cases e with
  | returned f =>
    obtain rfl := Option.some.inj hsome
    exact he
  | _ => cases hsome

theorem holdsSent_kept {sent : List (Packetizer × SentFrame)} (hids : (sent.map (fun x => x.2.frameId)).Nodup) :
    KeptByCalls (DatagramOf sent) (HoldsSent sent) where
  call r frames op hop h := by
    obtain ⟨hparts, hreturns⟩ := step_holdsParts hids h.1 hop.arrives
    refine ⟨hparts, ?_⟩
    intro frame hframe
    rcases List.mem_append.mp hframe with hold | hnew
    · exact h.2 frame hold
    · exact hreturns frame (mem_returnedFrames hnew)
  takeLossEvent _ _ h := h
  takeMaxGapMs _ _ h := h

/-- The reassembler's books are in order, for the frames it has returned. -/
def KeepsBooks (r : Reassembler) (frames : List Frame) : Prop :=
  r.Kept (frames.map ReassemblerEvent.returned)

/-- The books look at the ids alone. -/
theorem Reassembler.Kept.of_ids {r : Reassembler} {out out' : List ReassemblerEvent} (h : r.Kept out)
    (hids : returnedIds out' = returnedIds out) : r.Kept out' := by
  refine ⟨h.exact, h.few, ?_, ?_, ?_⟩
  · rw [hids]
    exact h.ordered
  · rw [hids]
    exact h.refused
  · rw [hids]
    exact h.above

theorem returnedIds_returned (frames : List Frame) :
    returnedIds (frames.map ReassemblerEvent.returned) = frames.map Frame.frameId := by
  rw [returnedIds_eq, returnedFrames, List.filterMap_map]
  congr 1
  exact List.filterMap_some

theorem keepsBooks_kept (D : Bytes → Prop) : KeptByCalls D KeepsBooks where
  call r frames op hop h := by
    refine (Reassembler.Kept.step h hop.parsed).of_ids ?_
    rw [returnedIds_returned, returnedIds_append, returnedIds_returned, returnedIds_eq, List.map_append]
  takeLossEvent _ _ h := h.congr rfl rfl
  takeMaxGapMs _ _ h := h.congr rfl rfl

/-- From a start on, whatever came before it, and whatever else arrives: as long as the video datagrams
that the screen lets in are those of frames that were sent, in any order and any number of times,
the frames it hands over are sent frames, as they were sent, each once and in the order of their
ids; and it keeps few frames waiting. -/
theorem screenClient_exact (s : ScreenClient) (cfg : ScreenClientConfig) (nowUs : UInt64)
    (sent : List (Packetizer × SentFrame)) (hids : (sent.map (fun x => x.2.frameId)).Nodup)
    (inputs : List ScreenClientInput)
    (hgoes : screenClient.Along (fun s _ input => s.GoesOn (DatagramOf sent) input) (s.start cfg nowUs).1 inputs) :
    let r := screenClient.run (s.start cfg nowUs).1 inputs
    (∀ frame, .frame frame ∈ r.2 → IsSent sent frame) ∧
      ((framesOf r.2).map Frame.frameId).Pairwise (· < ·) ∧
      ∀ reasm, r.1.reasm = some reasm → reasm.pending.size ≤ kMaxPendingFrames := by
  have hnone := (s.start_resets cfg nowUs).1
  have hempty : ∀ i, HoldsSent sent (.create i) [] := by
    intro i
    constructor
    · intro id p hp
      cases hp
    · intro frame hframe
      cases hframe
  have hordered : ∀ i, KeepsBooks (.create i) [] := by
    intro i
    have hkept := Reassembler.run_kept i (List.forall_mem_nil ReassemblerOp.Parsed)
    exact hkept
  -- one invariant for what is handed over, one for the order
  have hsent := ScreenClient.run_tracks (holdsSent_kept hids) hempty hnone inputs hgoes
  have horder := ScreenClient.run_tracks (keepsBooks_kept (DatagramOf sent)) hordered hnone inputs hgoes
  dsimp only
  generalize screenClient.run (s.start cfg nowUs).1 inputs = r at hsent horder
  refine ⟨?_, ?_, fun reasm hreasm => (horder.working reasm hreasm).few⟩
  · intro frame hframe
    have hmem := mem_framesOf.mpr hframe
    cases hreasm : r.1.reasm with
    | none =>
      rw [hsent.idle hreasm] at hmem
      cases hmem
    | some reasm => exact (hsent.working reasm hreasm).2 frame hmem
  · cases hreasm : r.1.reasm with
    | none =>
      rw [horder.idle hreasm]
      exact .nil
    | some reasm =>
      have hordered := (horder.working reasm hreasm).ordered
      rwa [returnedIds_returned] at hordered

/-- The host takes the viewer in with session 7, and the first of its frames arrives, twice over. -/
def oneFrameInputs : List ScreenClientInput :=
  let ack := (buildHelloAck kMaxDatagram ⟨7, 640, 480, 30, 1000000, false, .none⟩).getD []
  let video := ((Packetizer.sendFrame ⟨7, true⟩ ⟨[1, 2, 3], 5, 9, true⟩).1).getD 0 []
  [.onDatagram ack 10, .onDatagram video 20, .pollFrames 30, .onDatagram video 40, .pollFrames 50]

theorem screenClient_exact_one :
    IsSent [(⟨7, true⟩, ⟨[1, 2, 3], 5, 9, true⟩)] ⟨5, 9, true, 20, [1, 2, 3]⟩ := by
  have hgoes : screenClient.Along (fun s _ input =>
      s.GoesOn (DatagramOf [(⟨7, true⟩, ⟨[1, 2, 3], 5, 9, true⟩)]) input)
      (ScreenClient.start {} {} 0).1 oneFrameInputs := by
    rw [Machine.along_iff]
    -- the answer is no video, and the video is the frame's
    have hack : ∀ s : ScreenClient, ¬ s.TakesVideo
        ((buildHelloAck kMaxDatagram ⟨7, 640, 480, 30, 1000000, false, .none⟩).getD []) := by
      rintro s ⟨h, hheader, hchan, -⟩
      obtain rfl : h = ⟨3, .helloAck, 0, .control, 0⟩ := Option.some.inj (hheader.symm.trans (by decide))
      cases hchan
    have hvideo : DatagramOf [(⟨7, true⟩, ⟨[1, 2, 3], 5, 9, true⟩)]
        (((Packetizer.sendFrame ⟨7, true⟩ ⟨[1, 2, 3], 5, 9, true⟩).1).getD 0 []) :=
      ⟨_, List.mem_singleton_self _, by decide +kernel⟩
    exact ⟨⟨fun htakes => absurd htakes (hack _), rfl⟩, ⟨fun _ => hvideo, rfl⟩, ⟨trivial, rfl⟩,
      ⟨fun _ => hvideo, rfl⟩, ⟨trivial, rfl⟩, trivial⟩
  refine (screenClient_exact {} {} 0 _ (by decide) oneFrameInputs hgoes).1 _ ?_
  decide +kernel

end Deskhub
