import Deskhub.Media.H264Sps

/-!
# Parameter sets up to the VUI flag

What is parsed before the flag is decided by the bits before it. The one check on the length of the
whole asks for less than the bits that follow, so it agrees wherever these bits stand.
-/

namespace Deskhub

open BitReader BitStrings

namespace H264Sps

section Fields

variable {α : Type}

theorem local_onlyIf {p : Prop} [Decidable p] {m : Reading α} (h : Local m) :
    Local (onlyIf p m) := by
  apply Local.ite
  · apply h.bind
    intro _
    exact Local.pure ()
  · exact Local.pure ()

theorem local_nextScale (last next : Int) : Local (nextScale last next) := by
  apply Local.ite
  · apply local_se.bind
    intro _
    exact Local.pure _
  · exact Local.pure next

theorem local_scalingEntries (entries : Nat) (last next : Int) :
    Local (scalingEntries entries last next) := by
  induction entries generalizing last next with
  | zero => exact Local.pure ()
  | succ entries ih =>
    apply (local_nextScale last next).bind
    intro next
    exact ih _ next

theorem local_scalingLists (lists i : Nat) : Local (scalingLists lists i) := by
  induction lists generalizing i with
  | zero => exact Local.pure ()
  | succ lists ih =>
    apply (local_u 1).bind
    intro present
    apply (local_onlyIf (local_scalingEntries _ 8 8)).bind
    intro _
    exact ih (i + 1)

theorem local_highProfileFields : Local highProfileFields := by
  apply local_ue.bind
  intro chromaFormatIdc
  apply (local_onlyIf (local_u 1)).bind
  intro _
  apply local_ue.bind
  intro _
  apply local_ue.bind
  intro _
  apply (local_u 1).bind
  intro _
  apply (local_u 1).bind
  intro scalingMatrix
  exact local_onlyIf (local_scalingLists _ 0)

/-- Offsets take a bit each at least. -/
theorem local_seTimes (n : Nat) {r r' : BitReader} {a : Unit} (h : seTimes n r = some (a, r'))
    (hok : r'.overrun = false) :
    r.overrun = false ∧ ∃ used later, r.rest = used ++ later ∧
      r' = ⟨r.bytes, r.pos + used.length, false⟩ ∧ Takes (seTimes n) used a ∧ n ≤ used.length := by
  induction n generalizing r with
  | zero =>
    rcases Local.pure () r a r' h hok with ⟨hok₀, used, later, hused, hend, htakes⟩
    exact ⟨hok₀, used, later, hused, hend, htakes, Nat.zero_le _⟩
  | succ n ih =>
    rcases bind_eq_some h with ⟨k, r₁, hse, hnext⟩
    rcases ih hnext with ⟨hok₁, more, later, hmore, rfl, htakes', hlength⟩
    rcases local_se r k r₁ hse hok₁ with ⟨hok₀, used, after, hused, rfl, htakes⟩
    have hafter : (⟨r.bytes, r.pos + used.length, false⟩ : BitReader).rest = after := by
      apply rest_add
      exact hused
    have hpos := List.length_pos_iff.mpr (used_ne_of_takes (by decide) htakes)
    rw [hafter] at hmore
    refine ⟨hok₀, used ++ more, later, ?_, ?_, htakes.bind htakes', ?_⟩
    · rw [hused, hmore, List.append_assoc]
    · rw [List.length_append, Nat.add_assoc]
    · rw [List.length_append]
      omega

theorem local_cycleOffsets (cycle : Nat) : Local (cycleOffsets cycle) := by
  intro r a r' hrun hok
  unfold cycleOffsets at hrun
  split at hrun
  · cases hrun
  rcases local_seTimes cycle hrun hok with ⟨hok₀, used, later, hused, hend, htakes, hlength⟩
  refine ⟨hok₀, used, later, hused, hend, ?_⟩
  intro bytes pos later hrest
  -- the bits that are taken are among those there are
  have hlen := congrArg List.length hrest
  unfold rest at hlen
  rw [List.length_drop, length_bitsOf, List.length_append] at hlen
  have hroom : ¬ bytes.length * 8 < cycle := by
    change 8 * bytes.length - pos = _ at hlen
    omega
  unfold cycleOffsets
  rw [if_neg hroom]
  exact htakes bytes pos later hrest

theorem local_pocFields : Local pocFields := by
  apply local_ue.bind
  intro pocType
  apply (local_onlyIf local_ue).bind
  intro _
  apply local_onlyIf
  apply (local_u 1).bind
  intro _
  apply local_se.bind
  intro _
  apply local_se.bind
  intro _
  apply local_ue.bind
  intro cycle
  exact local_cycleOffsets cycle

theorem local_leadingFields : Local leadingFields := by
  apply (local_u 8).bind
  intro profileIdc
  apply (local_u 8).bind
  intro _
  apply (local_u 8).bind
  intro _
  apply local_ue.bind
  intro _
  apply (local_onlyIf local_highProfileFields).bind
  intro _
  apply local_ue.bind
  intro _
  exact local_pocFields

theorem local_frameFields : Local frameFields := by
  apply (local_u 1).bind
  intro _
  apply local_ue.bind
  intro _
  apply local_ue.bind
  intro _
  apply (local_u 1).bind
  intro frameMbsOnly
  apply (local_onlyIf (local_u 1)).bind
  intro _
  apply (local_u 1).bind
  intro _
  apply (local_u 1).bind
  intro cropping
  apply local_onlyIf
  apply local_ue.bind
  intro _
  apply local_ue.bind
  intro _
  apply local_ue.bind
  intro _
  exact local_ue

theorem local_fieldsUpToVuiFlag : Local fieldsUpToVuiFlag := by
  apply local_leadingFields.bind
  intro _
  apply local_ue.bind
  intro maxNumRefFrames
  apply local_frameFields.bind
  intro _
  exact Local.pure maxNumRefFrames

theorem maxNumRefFrames_lt {r r' : BitReader} {refs : Nat}
    (h : fieldsUpToVuiFlag r = some (refs, r')) : refs + 1 < 2 ^ 32 := by
  rcases bind_eq_some h with ⟨_, r₁, -, h⟩
  rcases bind_eq_some h with ⟨maxNumRefFrames, r₂, hue, h⟩
  rcases bind_eq_some h with ⟨_, r₃, -, h⟩
  cases h
  exact ue_lt hue

end Fields

/-! ## The flag -/

/-- What a valid prefix was read from. -/
theorem parseUpToVuiFlag_valid {rbsp : Bytes} (h : (parseUpToVuiFlag rbsp).valid = true) :
    ∃ used later, bitsOf rbsp = used ++ (parseUpToVuiFlag rbsp).hasVui :: later ∧
      (parseUpToVuiFlag rbsp).vuiFlagBit = used.length ∧
      Takes fieldsUpToVuiFlag used (parseUpToVuiFlag rbsp).maxNumRefFrames ∧
      (parseUpToVuiFlag rbsp).maxNumRefFrames + 1 < 2 ^ 32 := by
  unfold parseUpToVuiFlag at h ⊢
  cases hread : readUpToVuiFlag ⟨rbsp, 0, false⟩ with
  | none =>
    rw [hread] at h
    cases h
  | some result =>
    rcases result with ⟨sps, r'⟩
    rw [hread] at h
    rcases bind_eq_some hread with ⟨refs, r₁, hfields, hread⟩
    rcases bind_eq_some hread with ⟨vuiFlagBit, r₂, hpos, hread⟩
    obtain ⟨rfl, rfl⟩ := Prod.mk.inj (Option.some.inj hpos)
    rcases bind_eq_some hread with ⟨v, r₃, hflag, hread⟩
    rcases bind_eq_some hread with ⟨overrun, r₄, hset, hread⟩
    obtain ⟨rfl, rfl⟩ := Prod.mk.inj (Option.some.inj hset)
    obtain ⟨rfl, rfl⟩ := Prod.mk.inj (Option.some.inj hread)
    change (!r₃.overrun) = true at h
    have hok : r₃.overrun = false := by simpa using h
    rcases flag_of_u hflag hok with ⟨flag, later, rfl, hrest⟩
    rcases local_u 1 r₁ flag.toNat r₃ hflag hok with ⟨hok₁, -⟩
    rcases local_fieldsUpToVuiFlag _ refs r₁ hfields hok₁ with
      ⟨-, used, after, hused, rfl, htakes⟩
    have hafter : (⟨rbsp, 0 + used.length, false⟩ : BitReader).rest = after := rest_add hused
    refine ⟨used, later, ?_, Nat.zero_add _, htakes, maxNumRefFrames_lt hfields⟩
    have hflag' : decide (flag.toNat ≠ 0) = flag := by
      cases flag
      · rfl
      · rfl
    show bitsOf rbsp = used ++ decide (flag.toNat ≠ 0) :: later
    rw [hflag', ← hrest]
    exact hused.trans (by rw [← hafter])

/-- The prefix that is read where bits that give one stand before a flag. -/
theorem parseUpToVuiFlag_of_takes {rbsp : Bytes} {used later : List Bool} {flag : Bool} {refs : Nat}
    (htakes : Takes fieldsUpToVuiFlag used refs) (hbits : bitsOf rbsp = used ++ flag :: later) :
    parseUpToVuiFlag rbsp = ⟨true, flag, used.length, refs⟩ := by
  have hfields := htakes rbsp 0 (flag :: later) hbits
  rw [Nat.zero_add] at hfields
  have hafter : (⟨rbsp, used.length, false⟩ : BitReader).rest = flag :: later := by
    unfold rest
    rw [hbits, List.drop_left]
  have hflag := takes_flag flag rbsp used.length later hafter
  have hread : readUpToVuiFlag ⟨rbsp, 0, false⟩ =
      some (⟨true, flag.toNat ≠ 0, used.length, refs⟩, ⟨rbsp, used.length + 1, false⟩) := by
    unfold readUpToVuiFlag
    show (fieldsUpToVuiFlag ⟨rbsp, 0, false⟩).bind _ = _
    rw [hfields, Option.bind_some]
    show (u 1 ⟨rbsp, used.length, false⟩).bind _ = _
    rw [hflag]
    rfl
  unfold parseUpToVuiFlag
  rw [hread]
  cases flag
  · rfl
  · rfl

end H264Sps

end Deskhub

/-!
## What the rewrite of a parameter set gives

One unit: the bits up to the VUI flag, the flag, a VUI that reorders no frames, and no start code.
Rewriting it again gives nothing.
-/

namespace Deskhub

open BitReader BitStrings

namespace H264Sps

/-! ## The VUI -/

/-- The bits of `WriteZeroReorderVui`. -/
def vuiBits (maxDecFrameBuffering : Nat) : List Bool :=
  bits 8 0 ++ (bits 1 1 ++ (bits 1 1 ++ (ueBits 0 ++ (ueBits 0 ++ (ueBits kMaxMvLengthLog2 ++
    (ueBits kMaxMvLengthLog2 ++ (ueBits 0 ++ ueBits maxDecFrameBuffering)))))))

/-- The fields of a VUI none of whose first eight flags brings parameters of its own. -/
structure Vui where
  presentFlags : Nat
  bitstreamRestriction : Nat
  motionVectorsOverPicBoundaries : Nat
  maxBytesPerPicDenom : Nat
  maxBitsPerMbDenom : Nat
  log2MaxMvLengthHorizontal : Nat
  log2MaxMvLengthVertical : Nat
  maxNumReorderFrames : Nat
  maxDecFrameBuffering : Nat
deriving DecidableEq, Repr

def readVui : Reading Vui := do
  let presentFlags ← u 8
  let bitstreamRestriction ← u 1
  let motionVectorsOverPicBoundaries ← u 1
  let maxBytesPerPicDenom ← ue
  let maxBitsPerMbDenom ← ue
  let log2MaxMvLengthHorizontal ← ue
  let log2MaxMvLengthVertical ← ue
  let maxNumReorderFrames ← ue
  let maxDecFrameBuffering ← ue
  return {
    presentFlags, bitstreamRestriction, motionVectorsOverPicBoundaries, maxBytesPerPicDenom,
    maxBitsPerMbDenom, log2MaxMvLengthHorizontal, log2MaxMvLengthVertical, maxNumReorderFrames,
    maxDecFrameBuffering }

/-- The VUI that reorders no frames. -/
def zeroReorderVui (maxDecFrameBuffering : Nat) : Vui :=
  ⟨0, 1, 1, 0, 0, kMaxMvLengthLog2, kMaxMvLengthLog2, 0, maxDecFrameBuffering⟩

theorem takes_readVui {refs : Nat} (h : refs + 1 < 2 ^ 32) :
    Takes readVui (vuiBits refs) (zeroReorderVui refs) := by
  apply (takes_u 8 0).bind
  apply (takes_u 1 1).bind
  apply (takes_u 1 1).bind
  apply (takes_ue (v := 0) (by decide)).bind
  apply (takes_ue (v := 0) (by decide)).bind
  apply (takes_ue (v := kMaxMvLengthLog2) (by decide)).bind
  apply (takes_ue (v := kMaxMvLengthLog2) (by decide)).bind
  apply (takes_ue (v := 0) (by decide)).bind
  exact (takes_ue h).map _

section Writing

variable {w : BitWriter} {head : Bytes} {bs : List Bool}

theorem holds_writeZeroReorderVui (h : w.Holds head bs) (refs : Nat) :
    (writeZeroReorderVui w refs).Holds head (bs ++ vuiBits refs) := by
  have hflags := (((((((h.u 1 0).u 1 0).u 1 0).u 1 0).u 1 0).u 1 0).u 1 0).u 1 0
  have hall := ((((((((hflags.u 1 1).u 1 1).ue 0).ue 0).ue kMaxMvLengthLog2).ue
    kMaxMvLengthLog2).ue 0).ue refs)
  have height : bits 8 0 = bits 1 0 ++ (bits 1 0 ++ (bits 1 0 ++ (bits 1 0 ++ (bits 1 0 ++
      (bits 1 0 ++ (bits 1 0 ++ bits 1 0)))))) := rfl
  unfold vuiBits
  rw [height]
  simp only [List.append_assoc] at hall ⊢
  exact hall

/-- The loop copies the first bits. -/
theorem copyBits_holds {rbsp : Bytes} {count : Nat} (hcount : count ≤ (bitsOf rbsp).length)
    (h : w.Holds head bs) :
    ∃ w', copyBits rbsp count w = some w' ∧ w'.Holds head (bs ++ (bitsOf rbsp).take count) := by
  induction count with
  | zero =>
    refine ⟨w, rfl, ?_⟩
    rw [List.take_zero, List.append_nil]
    exact h
  | succ bit ih =>
    rcases ih (Nat.le_of_succ_le hcount) with ⟨w', hcopy, hholds⟩
    have hbyte : bit / 8 < rbsp.length := by
      rw [length_bitsOf] at hcount
      omega
    have hplace := getElem?_bitsOf (List.getElem?_eq_getElem hbyte)
    have hvalue : ((rbsp[bit / 8].toNat >>> (7 - bit % 8)) &&& 1).testBit 0 =
        rbsp[bit / 8].toNat.testBit (7 - bit % 8) := by
      rw [Nat.testBit_and, Nat.testBit_shiftRight]
      simp
    refine ⟨w'.u 1 ((rbsp[bit / 8].toNat >>> (7 - bit % 8)) &&& 1), ?_, ?_⟩
    · rw [copyBits, hcopy, List.getElem?_eq_getElem hbyte]
      rfl
    · have hnext := hholds.u 1 ((rbsp[bit / 8].toNat >>> (7 - bit % 8)) &&& 1)
      rw [List.take_add_one, hplace, ← List.append_assoc]
      rw [bits, hvalue] at hnext
      exact hnext

end Writing

/-! ## One unit -/

/-- The bits of a parameter set before and after, and of the unit that holds it. -/
structure Rewrite (header : UInt8) (payload payload' : Bytes) (kept : List Bool) (refs : Nat) :
    Prop where
  sps : header &&& 0x1F = kNalTypeSps
  parsed : parseUpToVuiFlag (toRbsp payload) = ⟨true, false, kept.length, refs⟩
  before : ∃ later, bitsOf (toRbsp payload) = kept ++ false :: later
  after : ∃ k, k < 8 ∧ bitsOf (toRbsp payload') =
    kept ++ true :: (vuiBits refs ++ true :: List.replicate k false)
  vui : ∃ r, readVui ⟨toRbsp payload', kept.length + 1, false⟩ = some (zeroReorderVui refs, r) ∧
    r.overrun = false
  noStartCode : ¬ [0, 0, 1] <:+: (header &&& 0x7F) :: payload'

/-- A unit that was rewritten: its header but for the forbidden bit, and its bits up to the flag. -/
def Rewritten (old new : Bytes) : Prop :=
  ∃ header payload payload' kept refs, old = header :: payload ∧
    new = (header &&& 0x7F) :: payload' ∧ Rewrite header payload payload' kept refs

theorem header_eq {header : UInt8} (h : header &&& 0x1F = kNalTypeSps) :
    ((((header >>> 5) &&& 3) &&& 3) <<< 5) ||| (kNalTypeSps &&& 0x1F) = header &&& 0x7F := by
  have hall : ∀ n : Fin 256, (UInt8.ofNat n.val) &&& 0x1F = kNalTypeSps →
      (((((UInt8.ofNat n.val) >>> 5) &&& 3) &&& 3) <<< 5) ||| (kNalTypeSps &&& 0x1F) =
        (UInt8.ofNat n.val) &&& 0x7F := by
    decide +kernel
  have hheader := hall ⟨header.toNat, header.toNat_lt⟩
  rw [UInt8.ofNat_toNat] at hheader
  exact hheader h

/-- The type of a unit does not depend on the forbidden bit. -/
theorem header_type {header : UInt8} (h : header &&& 0x1F = kNalTypeSps) :
    (header &&& 0x7F) &&& 0x1F = kNalTypeSps := by
  rw [UInt8.and_assoc]
  exact h

/-- A header of its type and protected bytes behind it hold no start code. -/
theorem safe_unit {header : UInt8} (h : header &&& 0x1F = kNalTypeSps) (full : Bytes) :
    Emulation.Safe 0 (header :: Emulation.protect 0 full) := by
  refine ⟨fun hzeros => absurd hzeros.1 (by decide), ?_⟩
  have hsome : header ≠ 0 := by
    rintro rfl
    exact absurd h (by decide)
  rw [Emulation.zerosAfter, if_neg hsome]
  exact Emulation.safe_protect 0 full

/-- What `AnnexBSpsWithZeroReorder` does with a unit: nothing, or it rewrites it. -/
theorem annexBSpsWithZeroReorder_cases (spsNal : Bytes) :
    annexBSpsWithZeroReorder spsNal = some [] ∨
      ∃ new, annexBSpsWithZeroReorder spsNal = some ([0, 0, 0, 1] ++ new) ∧ Rewritten spsNal new ∧
        ∃ b, new.getLast? = some b ∧ b ≠ 0 := by
  match spsNal with
  | [] => exact .inl rfl
  | header :: payload =>
    unfold annexBSpsWithZeroReorder
    dsimp only
    by_cases hother : payload = [] ∨ header &&& 0x1F ≠ kNalTypeSps
    · rw [if_pos hother]
      exact .inl rfl
    rw [if_neg hother]
    rw [not_or, not_not] at hother
    by_cases hdone : (!(parseUpToVuiFlag (toRbsp payload)).valid ||
        (parseUpToVuiFlag (toRbsp payload)).hasVui) = true
    · rw [if_pos hdone]
      exact .inl rfl
    rw [if_neg hdone]
    simp only [Bool.or_eq_true, Bool.not_eq_true', not_or, Bool.not_eq_false,
      Bool.not_eq_true] at hdone
    rcases parseUpToVuiFlag_valid hdone.1 with ⟨kept, later, hbits, hflagBit, htakes, hrefs⟩
    rw [hdone.2] at hbits
    have hparsed := parseUpToVuiFlag_of_takes htakes hbits
    rw [hparsed] at htakes hrefs ⊢
    dsimp only at htakes hrefs ⊢
    generalize (parseUpToVuiFlag (toRbsp payload)).maxNumRefFrames = refs at *
    right
    -- the bits that are written
    have hstart := BitWriter.holds_startNal ((header >>> 5) &&& 3) kNalTypeSps
    have hlength : kept.length ≤ (bitsOf (toRbsp payload)).length := by
      rw [hbits, List.length_append]
      omega
    rcases copyBits_holds hlength hstart with ⟨w, hcopy, hholds⟩
    rw [header_eq hother.2, hbits, List.take_left, List.nil_append] at hholds
    rcases (holds_writeZeroReorderVui (hholds.u 1 1) refs).trailing with
      ⟨full, k, hk, hout, hfull⟩
    have hfull' : bitsOf full = kept ++ true :: (vuiBits refs ++ true :: List.replicate k false) := by
      rw [hfull, List.append_assoc, List.append_assoc]
      rfl
    have hrbsp : toRbsp (Emulation.protect 0 full) = full := Emulation.strip_protect 0 full
    refine ⟨(header &&& 0x7F) :: Emulation.protect 0 full, ?_, ?_, ?_⟩
    · rw [hcopy]
      show some _ = some _
      rw [hout]
      rfl
    · refine ⟨header, payload, Emulation.protect 0 full, kept, refs, rfl, rfl, ?_⟩
      constructor
      · exact hother.2
      · exact hparsed
      · exact ⟨later, hbits⟩
      · rw [hrbsp]
        exact ⟨k, hk, hfull'⟩
      · rw [hrbsp]
        refine ⟨_, takes_readVui hrefs full (kept.length + 1) (true :: List.replicate k false) ?_, rfl⟩
        unfold rest
        rw [hfull', ← List.drop_drop, List.drop_left]
        rfl
      · exact (safe_unit (header_type hother.2) full).free_of_startCode
    · rcases getLast?_ne_zero hk hfull with ⟨b, hlast, hne⟩
      refine ⟨b, ?_, hne⟩
      rw [List.getLast?_cons, Emulation.getLast?_protect, hlast]
      rfl

/-- A unit that was rewritten is left as it is from then on. -/
theorem Rewritten.again {old new : Bytes} (h : Rewritten old new) :
    annexBSpsWithZeroReorder new = some [] := by
  rcases h with ⟨header, payload, payload', kept, refs, rfl, rfl, hrewrite⟩
  have htakes : Takes fieldsUpToVuiFlag kept refs := by
    rcases hrewrite.before with ⟨later, hbefore⟩
    have hvalid : (parseUpToVuiFlag (toRbsp payload)).valid = true := by
      rw [hrewrite.parsed]
    rcases parseUpToVuiFlag_valid hvalid with ⟨used, rest, hbits, hflagBit, htakes, -⟩
    rw [hrewrite.parsed] at hbits hflagBit htakes
    rw [hbefore] at hbits
    rw [(List.append_inj hbits hflagBit).1]
    exact htakes
  rcases hrewrite.after with ⟨k, -, hafter⟩
  have hparsed := parseUpToVuiFlag_of_takes htakes hafter
  unfold annexBSpsWithZeroReorder
  dsimp only
  by_cases hother : payload' = [] ∨ header &&& 0x7F &&& 0x1F ≠ kNalTypeSps
  · rw [if_pos hother]
  · rw [if_neg hother, hparsed]
    rfl

end H264Sps

end Deskhub
