import Deskhub.Session.ScreenHostSession

/-!
# The size of a shared source

The capture thread runs `AdmitCapturedFrame`, the network thread `RefreshOffer`. They share
the atomics of `SourcePipelineState`; here each access to one of them is a step of its own,
and what a thread does between two accesses belongs to the step before. `FitStreamSize`
computes in floating point. It is a parameter: nothing below depends on what it answers.
-/

namespace Deskhub

def kMinEncodeWidth : UInt32 := 160
def kMinEncodeHeight : UInt32 := 64
def kReconfigSends : UInt32 := 3

structure StreamSize where
  width : UInt32 := 0
  height : UInt32 := 0
deriving DecidableEq, Repr

structure EncodeSize where
  size : StreamSize := {}
  tooSmall : Bool := false
deriving DecidableEq, Repr

/-- `FitStreamSize`: a source size, the longest edge and the client's size. -/
abbrev FitStreamSize := UInt32 → UInt32 → UInt32 → UInt32 → UInt32 → StreamSize

def applyQualityScale (base : StreamSize) (scalePct : UInt32) : StreamSize :=
  let pct := if scalePct = 0 then 100 else if 100 < scalePct then 100 else scalePct
  if pct = 100 then base
  else ⟨(base.width * pct / 100) &&& ~~~1, (base.height * pct / 100) &&& ~~~1⟩

def targetStreamSize (fit : FitStreamSize) (srcW srcH maxDim clientW clientH scalePct : UInt32) :
    StreamSize :=
  let fitted := fit srcW srcH maxDim clientW clientH
  if fitted.width = 0 ∨ fitted.height = 0 then {}
  else
    let scaled := applyQualityScale fitted scalePct
    if scaled.width = 0 ∨ scaled.height = 0 then {} else scaled

def clampEncodeSize (fit : FitStreamSize) (nativeW nativeH wantW wantH maxDim : UInt32) :
    EncodeSize :=
  if nativeW = 0 ∨ nativeH = 0 then {}
  else
    let want := if wantW = 0 ∨ wantH = 0 then fit nativeW nativeH maxDim 0 0 else ⟨wantW, wantH⟩
    let w := (if nativeW < want.width then nativeW else want.width) &&& ~~~1
    let h := (if nativeH < want.height then nativeH else want.height) &&& ~~~1
    { size := ⟨w, h⟩, tooSmall := w < kMinEncodeWidth || h < kMinEncodeHeight }

def sourceSizeLabel (width height : UInt32) : String :=
  toString width.toNat ++ "x" ++ toString height.toNat

structure QualityStep where
  fps : UInt8 := 0
  scalePct : UInt8 := 100
deriving DecidableEq, Repr

structure SourcePipelineState where
  session : Option ScreenHostSession := none
  offer : StreamParams := {}
  srcW : UInt32 := 0
  srcH : UInt32 := 0
  curBitrateBps : UInt32 := 0
  nativeW : UInt32 := 0
  nativeH : UInt32 := 0
  wantW : UInt32 := 0
  wantH : UInt32 := 0
  cliW : UInt32 := 0
  cliH : UInt32 := 0
  sizeChanged : Bool := false
  qualityChanged : Bool := false
  paused : Bool := false
  step : QualityStep := {}
  reconfigOut : Reconfig := { width := 0, height := 0, bitrateBps := 0 }
  reconfigSendsLeft : UInt32 := 0
  lastReconfigSendUs : UInt64 := 0

/-! ## The capture thread -/

structure FrameAdmission where
  drop : Bool := false
  rebuildEncoder : Bool := false
  encode : StreamSize := {}
  sizeNote : String := ""
  pauseNote : String := ""
deriving DecidableEq, Repr

/-- The arguments of `AdmitCapturedFrame`. -/
structure CapturedFrame where
  nativeW : UInt32
  nativeH : UInt32
  maxDim : UInt32
deriving DecidableEq, Repr

/-- Where the capture thread is: the access it makes next, and what it has read so far. -/
inductive CapturePc where
  | idle
  | loadNativeW (f : CapturedFrame)
  | loadNativeH (f : CapturedFrame) (prevNativeW : UInt32)
  | storeNativeW (f : CapturedFrame) (prevNativeW prevNativeH : UInt32)
  | storeNativeH (f : CapturedFrame) (prevNativeW prevNativeH : UInt32)
  | retargetLoadW (f : CapturedFrame)
  | retargetLoadH (f : CapturedFrame) (nw : UInt32)
  | storeWantW (f : CapturedFrame) (t : StreamSize)
  | storeWantH (f : CapturedFrame) (t : StreamSize)
  | loadWantW (f : CapturedFrame)
  | loadWantH (f : CapturedFrame) (wantW : UInt32)
  | loadSrcW (f : CapturedFrame) (target : EncodeSize)
  | loadSrcH (f : CapturedFrame) (target : EncodeSize) (prevW : UInt32)
  | storeSrcW (target : EncodeSize) (out : FrameAdmission)
  | storeSrcH (target : EncodeSize) (out : FrameAdmission)
  | storeSizeChanged (target : EncodeSize) (out : FrameAdmission)
  | exchangePaused (target : EncodeSize) (out : FrameAdmission)
deriving DecidableEq

/-- The note on a new size, when there was one before. -/
def sizeNoteOf (f : CapturedFrame) (target : EncodeSize) (prevW prevH : UInt32) : String :=
  if prevW = 0 then ""
  else
    "Encode size " ++ sourceSizeLabel prevW prevH ++ " -> " ++
      sourceSizeLabel target.size.width target.size.height ++ " (source " ++
      sourceSizeLabel f.nativeW f.nativeH ++ "), rebuilding encoder."

/-- One access of `AdmitCapturedFrame` to the shared state; what it returns after the last. -/
def captureStep (fit : FitStreamSize) (st : SourcePipelineState) :
    CapturePc → SourcePipelineState × CapturePc × Option FrameAdmission
  | .idle => (st, .idle, none)
  | .loadNativeW f => (st, .loadNativeH f st.nativeW, none)
  | .loadNativeH f prevNativeW => (st, .storeNativeW f prevNativeW st.nativeH, none)
  | .storeNativeW f prevNativeW prevNativeH =>
      ({ st with nativeW := f.nativeW }, .storeNativeH f prevNativeW prevNativeH, none)
  | .storeNativeH f prevNativeW prevNativeH =>
      ({ st with nativeH := f.nativeH },
        if prevNativeW ≠ f.nativeW ∨ prevNativeH ≠ f.nativeH then .retargetLoadW f
        else .loadWantW f, none)
  | .retargetLoadW f => (st, .retargetLoadH f st.nativeW, none)
  | .retargetLoadH f nw =>
      let nh := st.nativeH
      if nw = 0 ∨ nh = 0 then (st, .loadWantW f, none)
      else
        let t := targetStreamSize fit nw nh f.maxDim st.cliW st.cliH st.step.scalePct.toUInt32
        if t.width = 0 ∨ t.height = 0 then (st, .loadWantW f, none)
        else (st, .storeWantW f t, none)
  | .storeWantW f t => ({ st with wantW := t.width }, .storeWantH f t, none)
  | .storeWantH f t => ({ st with wantH := t.height }, .loadWantW f, none)
  | .loadWantW f => (st, .loadWantH f st.wantW, none)
  | .loadWantH f wantW =>
      let target := clampEncodeSize fit f.nativeW f.nativeH wantW st.wantH f.maxDim
      if target.size.width = 0 ∨ target.size.height = 0 then
        (st, .idle, some { drop := true, encode := target.size })
      else (st, .loadSrcW f target, none)
  | .loadSrcW f target => (st, .loadSrcH f target st.srcW, none)
  | .loadSrcH f target prevW =>
      let prevH := st.srcH
      if prevW ≠ target.size.width ∨ prevH ≠ target.size.height then
        (st, .storeSrcW target
          { encode := target.size
            sizeNote := sizeNoteOf f target prevW prevH
            rebuildEncoder := true }, none)
      else (st, .exchangePaused target { encode := target.size }, none)
  | .storeSrcW target out => ({ st with srcW := target.size.width }, .storeSrcH target out, none)
  | .storeSrcH target out =>
      ({ st with srcH := target.size.height }, .storeSizeChanged target out, none)
  | .storeSizeChanged target out =>
      ({ st with sizeChanged := true }, .exchangePaused target out, none)
  | .exchangePaused target out =>
      let label := sourceSizeLabel target.size.width target.size.height
      if target.tooSmall then
        ({ st with paused := true }, .idle, some { out with
          drop := true
          pauseNote :=
            if st.paused then out.pauseNote
            else "Source too small to encode (" ++ label ++
              ") — paused, waiting for it to grow back." })
      else
        ({ st with paused := false }, .idle, some { out with
          pauseNote :=
            if st.paused then "Source back to " ++ label ++ " — resuming." else out.pauseNote })

/-- A call of `AdmitCapturedFrame` begins, or returns at once. -/
def captureStart (f : CapturedFrame) : CapturePc × Option FrameAdmission :=
  if f.nativeW = 0 ∨ f.nativeH = 0 then (.idle, some { drop := true })
  else (.loadNativeW f, none)

/-! ## The network thread -/

structure OfferUpdate where
  sizeChanged : Bool := false
  qualityChanged : Bool := false
  sendReconfig : Bool := false
  reconfig : Reconfig := { width := 0, height := 0, bitrateBps := 0 }
deriving DecidableEq, Repr

/-- Where the network thread is. -/
inductive NetworkPc where
  | idle
  | exchangeSizeChanged (fallbackFps : UInt8)
  | exchangeQualityChanged (fallbackFps : UInt8) (out : OfferUpdate)
  | loadPaused (fallbackFps : UInt8) (out : OfferUpdate)
  | loadSrcW (fallbackFps : UInt8) (out : OfferUpdate)
  | loadSrcH (fallbackFps : UInt8) (out : OfferUpdate)
  | loadBitrate (out : OfferUpdate)
deriving DecidableEq

/-- The end of `RefreshOffer`: the offer goes to the session, and to its viewers. -/
def announceOffer (st : SourcePipelineState) (out : OfferUpdate) :
    SourcePipelineState × OfferUpdate :=
  match st.session with
  | none => (st, out)
  | some session =>
      let st := { st with session := some (session.setOffer st.offer) }
      if session.viewers.viewerCount = 0 ∨ session.state ≠ .streaming then (st, out)
      else
        let reconfig : Reconfig :=
          { width := st.offer.width
            height := st.offer.height
            bitrateBps := st.offer.bitrateBps
            fps := st.offer.fps }
        ({ st with
            reconfigOut := reconfig, reconfigSendsLeft := kReconfigSends, lastReconfigSendUs := 0 },
          { out with sendReconfig := true, reconfig := reconfig })

/-- One access of `RefreshOffer` to the shared state; what it returns after the last. -/
def networkStep (st : SourcePipelineState) :
    NetworkPc → SourcePipelineState × NetworkPc × Option OfferUpdate
  | .idle => (st, .idle, none)
  | .exchangeSizeChanged fallbackFps =>
      ({ st with sizeChanged := false },
        .exchangeQualityChanged fallbackFps { sizeChanged := st.sizeChanged }, none)
  | .exchangeQualityChanged fallbackFps out =>
      ({ st with qualityChanged := false },
        .loadPaused fallbackFps { out with qualityChanged := st.qualityChanged }, none)
  | .loadPaused fallbackFps out =>
      if st.paused then (st, .idle, some out)
      else if !out.sizeChanged && !out.qualityChanged then (st, .idle, some out)
      else (st, .loadSrcW fallbackFps out, none)
  | .loadSrcW fallbackFps out =>
      ({ st with offer.width := st.srcW.toUInt16 }, .loadSrcH fallbackFps out, none)
  | .loadSrcH fallbackFps out =>
      ({ st with
          offer.height := st.srcH.toUInt16
          offer.fps := if st.step.fps ≠ 0 then st.step.fps else fallbackFps },
        .loadBitrate out, none)
  | .loadBitrate out =>
      let (st, out) := announceOffer { st with offer.bitrateBps := st.curBitrateBps } out
      (st, .idle, some out)

/-! ## Both threads -/

/-- The two threads, and what has been seen of their calls. -/
structure SharedSource where
  st : SourcePipelineState := {}
  capture : CapturePc := .idle
  network : NetworkPc := .idle
  /-- A frame has been admitted. -/
  admitted : Bool := false
  /-- The call of `RefreshOffer` that runs began after a frame had been admitted. -/
  fresh : Bool := false
  /-- Such a call has returned. -/
  refreshed : Bool := false

inductive SharedSourceEvent where
  | admitCapturedFrame (f : CapturedFrame)
  | refreshOffer (fallbackFps : UInt8)
  | capture
  | network
  | qualityChanges
deriving DecidableEq, Repr

inductive SharedSourceOutput where
  | admission (a : FrameAdmission)
  | update (u : OfferUpdate)
deriving DecidableEq

namespace SharedSource

/-- A call of `AdmitCapturedFrame` returns. -/
def withAdmission (w : SharedSource) (out : Option FrameAdmission) :
    SharedSource × List SharedSourceOutput :=
  match out with
  | none => (w, [])
  | some a => ({ w with admitted := w.admitted || !a.drop }, [.admission a])

/-- A call of `RefreshOffer` returns. -/
def withUpdate (w : SharedSource) (out : Option OfferUpdate) :
    SharedSource × List SharedSourceOutput :=
  match out with
  | none => (w, [])
  | some u => ({ w with refreshed := w.refreshed || w.fresh }, [.update u])

end SharedSource

/-- The threads as a machine: each call begins when its thread is idle, and an event of a
thread is its next access. -/
def sharedSource (fit : FitStreamSize) :
    Machine SharedSource SharedSourceEvent SharedSourceOutput where
  step w
    | .admitCapturedFrame f =>
        match w.capture with
        | .idle =>
            let (pc, out) := captureStart f
            { w with capture := pc }.withAdmission out
        | _ => (w, [])
    | .refreshOffer fallbackFps =>
        match w.network with
        | .idle => ({ w with network := .exchangeSizeChanged fallbackFps, fresh := w.admitted }, [])
        | _ => (w, [])
    | .capture =>
        let (st, pc, out) := captureStep fit w.st w.capture
        { w with st := st, capture := pc }.withAdmission out
    | .network =>
        let (st, pc, out) := networkStep w.st w.network
        { w with st := st, network := pc }.withUpdate out
    | .qualityChanges => ({ w with st.qualityChanged := true }, [])

/-!
## The offer follows the source

When both threads are at rest, the offer has the size of the source, unless a change is still
noted or the source is paused. Two kinds of step break this. `RefreshOffer` may take the note
of a change and find the source still paused, when the capture thread is about to end the
pause: then nobody notes the change again. And it keeps only 16 bits of a size.
`offerFollows_of_fair` says that without such steps the offer follows.
-/

/-- A size that is too small to encode. -/
def StreamSize.Small (size : StreamSize) : Prop :=
  size.width < kMinEncodeWidth ∨ size.height < kMinEncodeHeight

/-- A target that a frame is encoded at, or for which the source is paused. -/
structure EncodeSize.Valid (target : EncodeSize) : Prop where
  width : target.size.width ≠ 0
  height : target.size.height ≠ 0
  small : target.tooSmall = true ↔ target.size.Small

theorem clampEncodeSize_valid (fit : FitStreamSize) {nativeW nativeH wantW wantH maxDim : UInt32}
    (hsize : ¬ ((clampEncodeSize fit nativeW nativeH wantW wantH maxDim).size.width = 0 ∨
      (clampEncodeSize fit nativeW nativeH wantW wantH maxDim).size.height = 0)) :
    (clampEncodeSize fit nativeW nativeH wantW wantH maxDim).Valid := by
  refine ⟨fun h => hsize (.inl h), fun h => hsize (.inr h), ?_⟩
  unfold clampEncodeSize at hsize ⊢
  split
  · next hzero =>
    rw [if_pos hzero] at hsize
    exact absurd (.inl rfl) hsize
  · simp [StreamSize.Small]

namespace SourcePipelineState

/-- The size of the source. -/
def srcSize (st : SourcePipelineState) : StreamSize := ⟨st.srcW, st.srcH⟩

/-- The offer has the size of the source. -/
def OfferMatches (st : SourcePipelineState) : Prop :=
  st.offer.width.toNat = st.srcW.toNat ∧ st.offer.height.toNat = st.srcH.toNat

instance (st : SourcePipelineState) : Decidable st.OfferMatches :=
  inferInstanceAs (Decidable (_ ∧ _))

end SourcePipelineState

namespace CapturePc

/-- The capture thread has begun to store a new size and will note it. -/
def Storing : CapturePc → Prop
  | .storeSrcH .. | .storeSizeChanged .. => True
  | _ => False

/-- The capture thread has stored a size and has not yet set or cleared the pause. -/
def Deciding : CapturePc → Prop
  | .storeSrcH .. | .storeSizeChanged .. | .exchangePaused .. => True
  | _ => False

/-- What the capture thread has read and stored is how the source is. -/
def Holds (st : SourcePipelineState) : CapturePc → Prop
  | .loadSrcW _ target => target.Valid
  | .loadSrcH _ target prevW => target.Valid ∧ prevW = st.srcW
  | .storeSrcW target _ => target.Valid
  | .storeSrcH target _ => target.Valid ∧ st.srcW = target.size.width
  | .storeSizeChanged target _ => target.Valid ∧ st.srcSize = target.size
  | .exchangePaused target _ => target.Valid ∧ st.srcSize = target.size
  | _ => True

/-- The capture thread is about to end the pause. -/
def endsPause : CapturePc → Bool
  | .exchangePaused target _ => !target.tooSmall
  | _ => false

end CapturePc

namespace NetworkPc

/-- The network thread has taken the note of a change, and will set the offer. -/
def Owes (st : SourcePipelineState) : NetworkPc → Prop
  | .exchangeQualityChanged _ out => out.sizeChanged = true
  | .loadPaused _ out => out.sizeChanged = true
  | .loadSrcW .. => True
  | .loadSrcH .. => st.offer.width.toNat = st.srcW.toNat
  | _ => False

/-- The network thread is about to look at the pause. -/
def readsPaused : NetworkPc → Bool
  | .loadPaused .. => true
  | _ => false

/-- The network thread is about to read a width or a height that does not fit in 16 bits. -/
def cutsSize (st : SourcePipelineState) : NetworkPc → Bool
  | .loadSrcW .. => 65536 ≤ st.srcW.toNat
  | .loadSrcH .. => 65536 ≤ st.srcH.toNat
  | _ => false

end NetworkPc

namespace SharedSource

/-- Both threads are at rest. -/
def AtRest (w : SharedSource) : Prop := w.capture = .idle ∧ w.network = .idle

/-- At rest, after the offer was refreshed with a frame admitted, and with no pause and no
change noted, the offer has the size of the source. -/
def OfferFollows (w : SharedSource) : Prop :=
  w.AtRest → w.refreshed = true → w.st.paused = false → w.st.sizeChanged = false →
    w.st.OfferMatches

/-- `RefreshOffer` finds the source paused, with the note of a change taken, when the capture
thread has stored a size that the offer does not have and is about to end the pause. -/
def LosesChange (w : SharedSource) : Prop :=
  w.network.readsPaused = true ∧ w.st.paused = true ∧ w.st.sizeChanged = false ∧
    ¬ w.st.OfferMatches ∧ w.capture.endsPause = true

/-- A step that neither loses a change nor cuts a size. -/
def Fair (w : SharedSource) : SharedSourceEvent → Prop
  | .network => ¬ w.LosesChange ∧ ¬ w.network.cutsSize w.st = true
  | _ => True

instance (w : SharedSource) : Decidable w.LosesChange :=
  inferInstanceAs (Decidable (_ ∧ _ ∧ _ ∧ ¬ _ ∧ _))

instance (w : SharedSource) : (e : SharedSourceEvent) → Decidable (w.Fair e)
  | .network => inferInstanceAs (Decidable (_ ∧ _))
  | .admitCapturedFrame _ | .refreshOffer _ | .capture | .qualityChanges => .isTrue trivial

/-- Somebody will see to it that the offer gets the size of the source. -/
def Settled (w : SharedSource) : Prop :=
  w.st.OfferMatches ∨ w.st.sizeChanged = true ∨ w.capture.Storing ∨ w.network.Owes w.st ∨
    (w.st.paused = true ∧ w.st.srcSize.Small) ∨ w.st.srcW = 0

structure Inv (w : SharedSource) : Prop where
  holds : w.capture.Holds w.st
  paused : w.st.paused = true → w.st.srcSize.Small ∨ w.capture.Deciding
  settled : w.Settled
  admitted : w.admitted = true → w.st.srcW ≠ 0
  fresh : w.fresh = true → w.admitted = true
  refreshed : w.refreshed = true → w.admitted = true

theorem Inv.offerFollows {w : SharedSource} (h : Inv w) : OfferFollows w := by
  rintro ⟨hcapture, hnetwork⟩ hrefreshed hpaused hchanged
  rcases h.settled with hmatches | hnoted | hstoring | howes | hsmall | hvirgin
  · exact hmatches
  · rw [hchanged] at hnoted
    cases hnoted
  · rw [hcapture] at hstoring
    exact hstoring.elim
  · rw [hnetwork] at howes
    exact howes.elim
  · rw [hpaused] at hsmall
    cases hsmall.1
  · exact absurd hvirgin (h.admitted (h.refreshed hrefreshed))

/-- A thread's step that keeps what the other thread and the offer depend on. -/
structure Unseen (st st' : SourcePipelineState) : Prop where
  offer : st'.offer = st.offer
  srcW : st'.srcW = st.srcW
  srcH : st'.srcH = st.srcH
  sizeChanged : st'.sizeChanged = st.sizeChanged
  paused : st'.paused = st.paused

theorem Unseen.refl (st : SourcePipelineState) : Unseen st st := ⟨rfl, rfl, rfl, rfl, rfl⟩

theorem Unseen.matches_iff {st st' : SourcePipelineState} (h : Unseen st st') :
    st'.OfferMatches ↔ st.OfferMatches := by
  unfold SourcePipelineState.OfferMatches
  rw [h.offer, h.srcW, h.srcH]

theorem Unseen.small_iff {st st' : SourcePipelineState} (h : Unseen st st') :
    st'.srcSize.Small ↔ st.srcSize.Small := by
  unfold SourcePipelineState.srcSize
  rw [h.srcW, h.srcH]

theorem Unseen.owes {st st' : SourcePipelineState} (h : Unseen st st') {pc : NetworkPc}
    (howes : pc.Owes st) : pc.Owes st' := by
  cases pc with
  | loadSrcH fallbackFps out =>
    unfold NetworkPc.Owes at howes ⊢
    rw [h.offer, h.srcW]
    exact howes
  | _ => exact howes

/-! ## The capture thread -/

theorem Inv.withAdmission {w : SharedSource} (h : Inv w) {out : Option FrameAdmission}
    (hout : ∀ a, out = some a → a.drop = false → w.st.srcW ≠ 0) : Inv (w.withAdmission out).1 := by
  cases out with
  | none => exact h
  | some a =>
    refine ⟨h.holds, h.paused, h.settled, ?_, ?_, ?_⟩
    · intro hadmitted
      change (w.admitted || !a.drop) = true at hadmitted
      rw [Bool.or_eq_true, Bool.not_eq_true'] at hadmitted
      rcases hadmitted with hbefore | hkept
      · exact h.admitted hbefore
      · exact hout a rfl hkept
    · intro hfresh
      change (w.admitted || !a.drop) = true
      rw [h.fresh hfresh, Bool.true_or]
    · intro hrefreshed
      change (w.admitted || !a.drop) = true
      rw [h.refreshed hrefreshed, Bool.true_or]

/-- An access that the network thread does not notice. -/
theorem Inv.unseen {w : SharedSource} (h : Inv w) (hnot : ¬ w.capture.Deciding)
    {st : SourcePipelineState} (hunseen : Unseen w.st st) {pc : CapturePc} (hholds : pc.Holds st) :
    Inv { w with st := st, capture := pc } := by
  refine ⟨hholds, ?_, ?_, ?_, h.fresh, h.refreshed⟩
  · intro hpaused
    rw [hunseen.paused] at hpaused
    rcases h.paused hpaused with hsmall | hdeciding
    · exact .inl (hunseen.small_iff.mpr hsmall)
    · exact absurd hdeciding hnot
  · rcases h.settled with hmatches | hnoted | hstoring | howes | ⟨hpaused, hsmall⟩ | hvirgin
    · exact .inl (hunseen.matches_iff.mpr hmatches)
    · exact .inr (.inl (hunseen.sizeChanged.trans hnoted))
    · exfalso
      cases hpc : w.capture with
      | storeSrcH target out =>
        rw [hpc] at hnot
        exact hnot trivial
      | storeSizeChanged target out =>
        rw [hpc] at hnot
        exact hnot trivial
      | _ =>
        rw [hpc] at hstoring
        exact hstoring
    · exact .inr (.inr (.inr (.inl (hunseen.owes howes))))
    · exact .inr (.inr (.inr (.inr (.inl ⟨hunseen.paused.trans hpaused,
        hunseen.small_iff.mpr hsmall⟩))))
    · exact .inr (.inr (.inr (.inr (.inr (hunseen.srcW.trans hvirgin)))))
  · intro hadmitted
    rw [show ({ w with st := st, capture := pc } : SharedSource).st.srcW = w.st.srcW from
      hunseen.srcW]
    exact h.admitted hadmitted

/-- A change that is being stored will be noted. -/
theorem Inv.storing {w : SharedSource} (h : Inv w) {st : SourcePipelineState} (pc : CapturePc)
    (hholds : pc.Holds st) (hstoring : pc.Storing) (hdeciding : pc.Deciding) (hsrc : st.srcW ≠ 0) :
    Inv { w with st := st, capture := pc } :=
  ⟨hholds, fun _ => .inr hdeciding, .inr (.inr (.inl hstoring)), fun _ => hsrc, h.fresh,
    h.refreshed⟩

/-- The end of a call: the pause is set or cleared, as the size of the source has it. -/
theorem Inv.decided {w : SharedSource} (h : Inv w) {target : EncodeSize} {out : FrameAdmission}
    (hpc : w.capture = .exchangePaused target out) :
    Inv { w with st.paused := target.tooSmall, capture := .idle } := by
  have hholds := h.holds
  rw [hpc] at hholds
  obtain ⟨hvalid, hsrc⟩ := hholds
  have hsmall : target.tooSmall = true ↔ w.st.srcSize.Small := by
    rw [hsrc]
    exact hvalid.small
  refine ⟨trivial, fun hpaused => .inl (hsmall.mp hpaused), ?_, h.admitted, h.fresh, h.refreshed⟩
  rcases h.settled with hmatches | hnoted | hstoring | howes | ⟨-, hwas⟩ | hvirgin
  · exact .inl hmatches
  · exact .inr (.inl hnoted)
  · rw [hpc] at hstoring
    exact hstoring.elim
  · refine .inr (.inr (.inr (.inl ?_)))
    cases hnet : w.network with
    | _ =>
      rw [hnet] at howes
      exact howes
  · exact .inr (.inr (.inr (.inr (.inl ⟨hsmall.mpr hwas, hwas⟩))))
  · exact .inr (.inr (.inr (.inr (.inr hvirgin))))

theorem Inv.capture {w : SharedSource} (h : Inv w) (fit : FitStreamSize) :
    Inv ((sharedSource fit).step w .capture).1 := by
  have hholds := h.holds
  change Inv ({ w with
    st := (captureStep fit w.st w.capture).1
    capture := (captureStep fit w.st w.capture).2.1 }.withAdmission
      (captureStep fit w.st w.capture).2.2).1
  -- an access of the first kind, where the call goes on
  have hquiet : ∀ {st : SourcePipelineState} {pc : CapturePc}, ¬ w.capture.Deciding →
      Unseen w.st st → pc.Holds st →
      Inv ({ w with st := st, capture := pc }.withAdmission none).1 := by
    intro st pc hnot hunseen hpc
    exact (h.unseen hnot hunseen hpc).withAdmission nofun
  have hkept : Unseen w.st w.st := .refl _
  cases hpc : w.capture with
  | idle => exact hquiet (by rw [hpc]; exact id) hkept trivial
  | loadNativeW f => exact hquiet (by rw [hpc]; exact id) hkept trivial
  | loadNativeH f prevNativeW => exact hquiet (by rw [hpc]; exact id) hkept trivial
  | storeNativeW f prevNativeW prevNativeH =>
    exact hquiet (by rw [hpc]; exact id) ⟨rfl, rfl, rfl, rfl, rfl⟩ trivial
  | storeNativeH f prevNativeW prevNativeH =>
    have hnot : ¬ w.capture.Deciding := by
      rw [hpc]
      exact id
    unfold captureStep
    dsimp only
    split
    · exact hquiet hnot ⟨rfl, rfl, rfl, rfl, rfl⟩ trivial
    · exact hquiet hnot ⟨rfl, rfl, rfl, rfl, rfl⟩ trivial
  | retargetLoadW f => exact hquiet (by rw [hpc]; exact id) hkept trivial
  | retargetLoadH f nw =>
    have hnot : ¬ w.capture.Deciding := by
      rw [hpc]
      exact id
    unfold captureStep
    dsimp only
    split
    · exact hquiet hnot hkept trivial
    · split
      · exact hquiet hnot hkept trivial
      · exact hquiet hnot hkept trivial
  | storeWantW f t => exact hquiet (by rw [hpc]; exact id) ⟨rfl, rfl, rfl, rfl, rfl⟩ trivial
  | storeWantH f t => exact hquiet (by rw [hpc]; exact id) ⟨rfl, rfl, rfl, rfl, rfl⟩ trivial
  | loadWantW f => exact hquiet (by rw [hpc]; exact id) hkept trivial
  | loadWantH f wantW =>
    have hnot : ¬ w.capture.Deciding := by
      rw [hpc]
      exact id
    unfold captureStep
    dsimp only
    split
    · refine (h.unseen hnot hkept (show CapturePc.idle.Holds w.st from trivial)).withAdmission ?_
      intro a ha hkeep
      cases ha
      cases hkeep
    · next hsize => exact hquiet hnot hkept (clampEncodeSize_valid fit hsize)
  | loadSrcW f target =>
    rw [hpc] at hholds
    exact hquiet (by rw [hpc]; exact id) hkept ⟨hholds, rfl⟩
  | loadSrcH f target prevW =>
    rw [hpc] at hholds
    obtain ⟨hvalid, hprev⟩ := hholds
    have hnot : ¬ w.capture.Deciding := by
      rw [hpc]
      exact id
    unfold captureStep
    dsimp only
    split
    · exact hquiet hnot hkept hvalid
    · next hsame =>
      refine hquiet hnot hkept ⟨hvalid, ?_⟩
      rw [not_or, not_not, not_not] at hsame
      unfold SourcePipelineState.srcSize
      rw [← hprev, hsame.1, hsame.2]
  | storeSrcW target out =>
    rw [hpc] at hholds
    exact (h.storing (.storeSrcH target out) ⟨hholds, rfl⟩ trivial trivial
      hholds.width).withAdmission nofun
  | storeSrcH target out =>
    rw [hpc] at hholds
    obtain ⟨hvalid, hsrc⟩ := hholds
    refine (h.storing (.storeSizeChanged target out) ⟨hvalid, ?_⟩ trivial trivial
      ?_).withAdmission nofun
    · exact congrArg (StreamSize.mk · _) hsrc
    · change w.st.srcW ≠ 0
      rw [hsrc]
      exact hvalid.width
  | storeSizeChanged target out =>
    rw [hpc] at hholds
    have hnext : Inv { w with
        st.sizeChanged := true, capture := .exchangePaused target out } :=
      ⟨hholds, fun _ => .inr trivial, .inr (.inl rfl), h.admitted, h.fresh, h.refreshed⟩
    exact hnext.withAdmission nofun
  | exchangePaused target out =>
    rw [hpc] at hholds
    have hdecided := h.decided hpc
    have hsrc : w.st.srcW ≠ 0 := by
      have hwidth : w.st.srcW = target.size.width := congrArg StreamSize.width hholds.2
      rw [hwidth]
      exact hholds.1.width
    unfold captureStep
    dsimp only
    cases hsmall : target.tooSmall with
    | true =>
      rw [hsmall] at hdecided
      exact hdecided.withAdmission fun _ _ _ => hsrc
    | false =>
      rw [hsmall] at hdecided
      exact hdecided.withAdmission fun _ _ _ => hsrc

/-! ## The network thread -/

theorem Inv.withUpdate {w : SharedSource} (h : Inv w) (out : Option OfferUpdate) :
    Inv (w.withUpdate out).1 := by
  cases out with
  | none => exact h
  | some u =>
    refine ⟨h.holds, h.paused, h.settled, h.admitted, h.fresh, ?_⟩
    intro hrefreshed
    change (w.refreshed || w.fresh) = true at hrefreshed
    rw [Bool.or_eq_true] at hrefreshed
    exact hrefreshed.elim h.refreshed h.fresh

/-- What the capture thread depends on. -/
structure Undisturbed (st st' : SourcePipelineState) : Prop where
  srcW : st'.srcW = st.srcW
  srcH : st'.srcH = st.srcH
  paused : st'.paused = st.paused

theorem Undisturbed.holds {st st' : SourcePipelineState} (h : Undisturbed st st') {pc : CapturePc}
    (hholds : pc.Holds st) : pc.Holds st' := by
  have hsize : st'.srcSize = st.srcSize := by
    unfold SourcePipelineState.srcSize
    rw [h.srcW, h.srcH]
  cases pc with
  | loadSrcH f target prevW => exact ⟨hholds.1, hholds.2.trans h.srcW.symm⟩
  | storeSrcH target out => exact ⟨hholds.1, h.srcW.trans hholds.2⟩
  | storeSizeChanged target out => exact ⟨hholds.1, hsize.trans hholds.2⟩
  | exchangePaused target out => exact ⟨hholds.1, hsize.trans hholds.2⟩
  | _ => exact hholds

/-- An access of the network thread after which the offer is still seen to. -/
theorem Inv.network_of {w : SharedSource} (h : Inv w) {st : SourcePipelineState}
    (hundisturbed : Undisturbed w.st st) {pc : NetworkPc}
    (hsettled : ({ w with st := st, network := pc } : SharedSource).Settled) :
    Inv { w with st := st, network := pc } := by
  refine ⟨hundisturbed.holds h.holds, ?_, hsettled, ?_, h.fresh, h.refreshed⟩
  · intro hpaused
    change st.paused = true at hpaused
    rw [hundisturbed.paused] at hpaused
    refine (h.paused hpaused).imp ?_ id
    intro hsmall
    change st.srcSize.Small
    unfold SourcePipelineState.srcSize
    rw [hundisturbed.srcW, hundisturbed.srcH]
    exact hsmall
  · intro hadmitted
    change st.srcW ≠ 0
    rw [hundisturbed.srcW]
    exact h.admitted hadmitted

/-- A size that fits is kept. -/
theorem toUInt16_toNat {x : UInt32} (h : x.toNat < 65536) : x.toUInt16.toNat = x.toNat := by
  rw [UInt32.toNat_toUInt16]
  exact Nat.mod_eq_of_lt h

theorem announceOffer_spec (st : SourcePipelineState) (out : OfferUpdate) :
    (announceOffer st out).1.offer = st.offer ∧ (announceOffer st out).1.srcW = st.srcW ∧
      (announceOffer st out).1.srcH = st.srcH ∧
      (announceOffer st out).1.sizeChanged = st.sizeChanged ∧
      (announceOffer st out).1.paused = st.paused := by
  unfold announceOffer
  split
  · exact ⟨rfl, rfl, rfl, rfl, rfl⟩
  · dsimp only
    split
    · exact ⟨rfl, rfl, rfl, rfl, rfl⟩
    · exact ⟨rfl, rfl, rfl, rfl, rfl⟩

theorem Inv.network {w : SharedSource} (h : Inv w) (fit : FitStreamSize)
    (hloses : ¬ w.LosesChange) (hcuts : ¬ w.network.cutsSize w.st = true) :
    Inv ((sharedSource fit).step w .network).1 := by
  change Inv ({ w with
    st := (networkStep w.st w.network).1
    network := (networkStep w.st w.network).2.1 }.withUpdate (networkStep w.st w.network).2.2).1
  refine Inv.withUpdate ?_ _
  cases hpc : w.network with
  | idle =>
    have hsame : ({ w with st := w.st, network := .idle } : SharedSource) = w := by rw [← hpc]
    change Inv { w with st := w.st, network := .idle }
    rw [hsame]
    exact h
  | exchangeSizeChanged fallbackFps =>
    refine h.network_of ?_ ?_
    · exact ⟨rfl, rfl, rfl⟩
    rcases h.settled with hmatches | hnoted | hstoring | howes | hsmall | hvirgin
    · exact .inl hmatches
    · exact .inr (.inr (.inr (.inl hnoted)))
    · exact .inr (.inr (.inl hstoring))
    · rw [hpc] at howes
      exact howes.elim
    · exact .inr (.inr (.inr (.inr (.inl hsmall))))
    · exact .inr (.inr (.inr (.inr (.inr hvirgin))))
  | exchangeQualityChanged fallbackFps out =>
    refine h.network_of ?_ ?_
    · exact ⟨rfl, rfl, rfl⟩
    rcases h.settled with hmatches | hnoted | hstoring | howes | hsmall | hvirgin
    · exact .inl hmatches
    · exact .inr (.inl hnoted)
    · exact .inr (.inr (.inl hstoring))
    · rw [hpc] at howes
      exact .inr (.inr (.inr (.inl howes)))
    · exact .inr (.inr (.inr (.inr (.inl hsmall))))
    · exact .inr (.inr (.inr (.inr (.inr hvirgin))))
  | loadPaused fallbackFps out =>
    unfold networkStep
    by_cases hpaused : w.st.paused = true
    · -- the source is paused: the note that was taken is not acted on
      dsimp only
      rw [if_pos hpaused]
      refine h.network_of ?_ ?_
      · exact ⟨rfl, rfl, rfl⟩
      rcases h.paused hpaused with hsmall | hdeciding
      · exact .inr (.inr (.inr (.inr (.inl ⟨hpaused, hsmall⟩))))
      · cases hcapture : w.capture with
        | storeSrcH target adm => exact .inr (.inr (.inl trivial))
        | storeSizeChanged target adm => exact .inr (.inr (.inl trivial))
        | exchangePaused target adm =>
          by_cases hsettled : w.st.OfferMatches ∨ w.st.sizeChanged = true
          · exact hsettled.imp id .inl
          · rw [not_or, Bool.not_eq_true] at hsettled
            have hholds := h.holds
            rw [hcapture] at hholds
            cases hsmall : target.tooSmall with
            | false =>
              refine absurd ⟨?_, hpaused, hsettled.2, hsettled.1, ?_⟩ hloses
              · rw [hpc]
                rfl
              · rw [hcapture]
                exact congrArg not hsmall
            | true =>
              refine .inr (.inr (.inr (.inr (.inl ⟨hpaused, ?_⟩))))
              change w.st.srcSize.Small
              rw [hholds.2]
              exact hholds.1.small.mp hsmall
        | _ =>
          rw [hcapture] at hdeciding
          exact hdeciding.elim
    · dsimp only
      rw [if_neg hpaused]
      split
      · next hnothing =>
        refine h.network_of ?_ ?_
        · exact ⟨rfl, rfl, rfl⟩
        rw [Bool.and_eq_true, Bool.not_eq_true'] at hnothing
        rcases h.settled with hmatches | hnoted | hstoring | howes | hsmall | hvirgin
        · exact .inl hmatches
        · exact .inr (.inl hnoted)
        · exact .inr (.inr (.inl hstoring))
        · rw [hpc] at howes
          change out.sizeChanged = true at howes
          rw [hnothing.1] at howes
          cases howes
        · exact .inr (.inr (.inr (.inr (.inl hsmall))))
        · exact .inr (.inr (.inr (.inr (.inr hvirgin))))
      · refine h.network_of ?_ ?_
        · exact ⟨rfl, rfl, rfl⟩
        · exact .inr (.inr (.inr (.inl trivial)))
  | loadSrcW fallbackFps out =>
    refine h.network_of ?_ (.inr (.inr (.inr (.inl ?_))))
    · exact ⟨rfl, rfl, rfl⟩
    rw [hpc] at hcuts
    exact toUInt16_toNat (Nat.lt_of_not_le fun hwide => hcuts (decide_eq_true hwide))
  | loadSrcH fallbackFps out =>
    have hfits : w.st.srcH.toUInt16.toNat = w.st.srcH.toNat := by
      rw [hpc] at hcuts
      exact toUInt16_toNat (Nat.lt_of_not_le fun hhigh => hcuts (decide_eq_true hhigh))
    refine h.network_of ?_ ?_
    · exact ⟨rfl, rfl, rfl⟩
    rcases h.settled with hmatches | hnoted | hstoring | howes | hsmall | hvirgin
    · exact .inl ⟨hmatches.1, hfits⟩
    · exact .inr (.inl hnoted)
    · exact .inr (.inr (.inl hstoring))
    · rw [hpc] at howes
      exact .inl ⟨howes, hfits⟩
    · exact .inr (.inr (.inr (.inr (.inl hsmall))))
    · exact .inr (.inr (.inr (.inr (.inr hvirgin))))
  | loadBitrate out =>
    obtain ⟨hoffer, hsrcW, hsrcH, hchanged, hpaused⟩ :=
      announceOffer_spec { w.st with offer.bitrateBps := w.st.curBitrateBps } out
    unfold networkStep
    dsimp only
    generalize announceOffer { w.st with offer.bitrateBps := w.st.curBitrateBps } out = result
      at hoffer hsrcW hsrcH hchanged hpaused
    refine h.network_of ⟨hsrcW, hsrcH, hpaused⟩ ?_
    rcases h.settled with hmatches | hnoted | hstoring | howes | ⟨hwas, hsmall⟩ | hvirgin
    · left
      change result.1.OfferMatches
      unfold SourcePipelineState.OfferMatches
      rw [hoffer, hsrcW, hsrcH]
      exact hmatches
    · exact .inr (.inl (hchanged.trans hnoted))
    · exact .inr (.inr (.inl hstoring))
    · rw [hpc] at howes
      exact howes.elim
    · refine .inr (.inr (.inr (.inr (.inl ⟨hpaused.trans hwas, ?_⟩))))
      change result.1.srcSize.Small
      unfold SourcePipelineState.srcSize
      rw [hsrcW, hsrcH]
      exact hsmall
    · exact .inr (.inr (.inr (.inr (.inr (hsrcW.trans hvirgin)))))

/-! ## Runs -/

/-- A source of which no frame has been captured. -/
def init (st : SourcePipelineState) : SharedSource :=
  { st := { st with srcW := 0, srcH := 0, sizeChanged := false, paused := false } }

theorem inv_init (st : SourcePipelineState) : Inv (init st) :=
  ⟨trivial, nofun, .inr (.inr (.inr (.inr (.inr rfl)))), nofun, nofun, nofun⟩

theorem Inv.step {w : SharedSource} (h : Inv w) (fit : FitStreamSize) {e : SharedSourceEvent}
    (hfair : w.Fair e) : Inv ((sharedSource fit).step w e).1 := by
  cases e with
  | capture => exact h.capture fit
  | network => exact h.network fit hfair.1 hfair.2
  | qualityChanges =>
    refine ⟨?_, h.paused, ?_, h.admitted, h.fresh, h.refreshed⟩
    · exact Undisturbed.holds ⟨rfl, rfl, rfl⟩ h.holds
    · refine h.settled.imp id (.imp id (.imp id (.imp ?_ id)))
      exact (Unseen.owes ⟨rfl, rfl, rfl, rfl, rfl⟩ ·)
  | admitCapturedFrame f =>
    cases hpc : w.capture with
    | idle =>
      have hstep : (sharedSource fit).step w (.admitCapturedFrame f) =
          { w with capture := (captureStart f).1 }.withAdmission (captureStart f).2 := by
        unfold sharedSource
        dsimp only
        rw [hpc]
      have hnot : ¬ w.capture.Deciding := by
        rw [hpc]
        exact id
      rw [hstep]
      unfold captureStart
      split
      · refine (h.unseen hnot (.refl _) (show CapturePc.idle.Holds w.st from trivial)).withAdmission ?_
        intro a ha hkeep
        cases ha
        cases hkeep
      · exact (h.unseen hnot (.refl _)
          (show (CapturePc.loadNativeW f).Holds w.st from trivial)).withAdmission nofun
    | _ =>
      have hstep : (sharedSource fit).step w (.admitCapturedFrame f) = (w, []) := by
        unfold sharedSource
        dsimp only
        rw [hpc]
      rw [hstep]
      exact h
  | refreshOffer fallbackFps =>
    cases hpc : w.network with
    | idle =>
      have hstep : (sharedSource fit).step w (.refreshOffer fallbackFps) =
          ({ w with network := .exchangeSizeChanged fallbackFps, fresh := w.admitted }, []) := by
        unfold sharedSource
        dsimp only
        rw [hpc]
      rw [hstep]
      refine ⟨h.holds, h.paused, ?_, h.admitted, id, h.refreshed⟩
      refine h.settled.imp id (.imp id (.imp id (.imp ?_ id)))
      intro howes
      rw [hpc] at howes
      exact howes.elim
    | _ =>
      have hstep : (sharedSource fit).step w (.refreshOffer fallbackFps) = (w, []) := by
        unfold sharedSource
        dsimp only
        rw [hpc]
      rw [hstep]
      exact h

/-- In a run that neither loses a change nor cuts a size, the offer follows the source. -/
theorem offerFollows_of_fair (fit : FitStreamSize) (st : SourcePipelineState)
    (events : List SharedSourceEvent)
    (hfair : (sharedSource fit).Along (fun w _ e => w.Fair e) (init st) events) :
    ∀ pre post, events = pre ++ post →
      OfferFollows ((sharedSource fit).run (init st) pre).1 := by
  intro pre post hsplit
  subst hsplit
  have hinv := (sharedSource fit).run_invariant (fun w _ => Inv w) (fun w _ e => w.Fair e)
    (inv_init st) (fun w _ e hstep hw => hw.step fit hstep) pre hfair.left
  exact hinv.offerFollows

/-- A fit where there is no limit: the source as it is. -/
def fitUnlimited : FitStreamSize := fun srcW srcH _ _ _ => ⟨srcW, srcH⟩

/-- A frame of a size, and `n` accesses of its admission. -/
def frameOf (nativeW nativeH : UInt32) (n : Nat) : List SharedSourceEvent :=
  .admitCapturedFrame ⟨nativeW, nativeH, 0⟩ :: List.replicate n .capture

/-- A whole call of `RefreshOffer`. -/
def wholeRefresh : List SharedSourceEvent := .refreshOffer 60 :: List.replicate 7 .network

/-- A source that is too small for a while and grows back, refreshed after each frame. -/
theorem offerFollows_grownBack :
    OfferFollows ((sharedSource fitUnlimited).run (init {})
      (frameOf 1280 720 16 ++ wholeRefresh ++ frameOf 120 40 16 ++ wholeRefresh ++
        frameOf 640 480 16 ++ wholeRefresh)).1 := by
  exact offerFollows_of_fair fitUnlimited {} _ (by decide +kernel) _ [] (List.append_nil _).symm

/-- The same source, refreshed just before the pause ends. -/
theorem offerFollows_lost :
    ¬ ∀ (fit : FitStreamSize) (st : SourcePipelineState) (events pre post : List SharedSourceEvent),
      events = pre ++ post → OfferFollows ((sharedSource fit).run (init st) pre).1 := by
  intro h
  have hfollows := h fitUnlimited {}
    (frameOf 1280 720 16 ++ wholeRefresh ++ frameOf 120 40 16 ++ wholeRefresh ++
      frameOf 640 480 15 ++ wholeRefresh ++ [.capture]) _ [] (List.append_nil _).symm
  have hmatches := hfollows ⟨by decide +kernel, by decide +kernel⟩ (by decide +kernel)
    (by decide +kernel) (by decide +kernel)
  exact absurd hmatches.1 (by decide +kernel)

end SharedSource

end Deskhub
